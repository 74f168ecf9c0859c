import MarketingSuite.Analytics.Metrics
import MarketingSuite.Lib.Lives
import Mathlib.Data.Fintype.EquivFin

/-! # The life of a campaign

The campaign service lets a campaign be created as a draft, change its status along
`validTransitions`, and be deleted, after which nothing becomes of it. What all requests to all
workspaces can make of a campaign are exactly the walks of this graph. -/

namespace MarketingSuite.Campaigns.Lifecycle

open MarketingSuite.Lib.Programs MarketingSuite.Lib.Tables MarketingSuite.Lib.Lives
open MarketingSuite.Base.Values MarketingSuite.Base.Models MarketingSuite.Base.Schema
open MarketingSuite.Repositories.Base MarketingSuite.Campaigns.Service
open MarketingSuite.Analytics.Metrics (CampaignCall perform)

/-! ### The graph -/

/-- How far a campaign has come. -/
structure Life where
  workspaceId : Uuid
  status : CampaignStatus
  deleted : Bool
deriving DecidableEq, Repr

/-- A new campaign is a draft. -/
def Born (a : Life) : Prop := a.status = .draft ∧ a.deleted = false

/-- What a campaign becomes next. -/
inductive Moves : Life → Life → Prop
  | status {w : Uuid} {old new : CampaignStatus} (h : new ∈ validTransitions old) :
    Moves ⟨w, old, false⟩ ⟨w, new, false⟩
  | delete {w : Uuid} {old : CampaignStatus} : Moves ⟨w, old, false⟩ ⟨w, old, true⟩

theorem not_mem_validTransitions (status : CampaignStatus) : status ∉ validTransitions status := by
  cases status <;> decide

theorem moves_irrefl (a : Life) : ¬ Moves a a := by
  rintro (⟨h⟩)
  exact not_mem_validTransitions _ h

/-! ### The system -/

/-- A request of another part of the system, which leaves the campaigns alone. -/
abbrev Other : Type := { p : Svc Unit // p.Frames Database.campaigns }

/-- A request to a workspace's campaigns, or another one. -/
inductive Event
  | call (w : Uuid) (c : CampaignCall)
  | other (body : Other)

/-- The state after a request, whose caller commits it. -/
def step (s : Database) : Event → Database
  | .call w c => (perform w c).settle s
  | .other body => (body.val s).2

def Life.of (c : Campaign) : Life := ⟨c.workspaceId, c.status, c.deletedAt.isSome⟩

/-- The campaign with this id. -/
def lifeIn (i : Uuid) (T : Table Campaign) : Option Life :=
  (T.rows.find? fun c => c.id = i).map Life.of

def lifeAt (i : Uuid) (s : Database) : Option Life := lifeIn i s.campaigns

variable {i j w o : Uuid} {s s' : Database} {T T' : Table Campaign} {c r a : Campaign} {d : Draws}
  {f : Campaign → Campaign} {e : Event}

theorem lifeIn_eq_some {b : Life} :
    lifeIn i T = some b ↔ ∃ c ∈ T.rows, c.id = i ∧ Life.of c = b := by
  unfold lifeIn
  rw [Option.map_eq_some_iff]
  constructor
  · rintro ⟨c, hfind, hb⟩
    exact ⟨c, List.mem_of_find?_eq_some hfind, by simpa using List.find?_some hfind, hb⟩
  · rintro ⟨c, hc, hi, hb⟩
    rcases hfind : T.rows.find? fun c => c.id = i with _ | q
    · exact absurd (List.find?_eq_none.mp hfind c hc) (by simp [hi])
    · have hq : q.id = i := by simpa using List.find?_some hfind
      obtain rfl := T.eq_of_key_eq (List.mem_of_find?_eq_some hfind) hc (hq.trans hi.symm)
      exact ⟨q, hfind, hb⟩

theorem lifeIn_of_mem (hc : c ∈ T.rows) (hi : c.id = i) : lifeIn i T = some (Life.of c) :=
  lifeIn_eq_some.mpr ⟨c, hc, hi, rfl⟩

theorem lifeIn_of_not (h : ∀ c ∈ T.rows, c.id ≠ i) : lifeIn i T = none := by
  refine Option.eq_none_iff_forall_ne_some.mpr fun b hb => ?_
  obtain ⟨c, hc, hi, -⟩ := lifeIn_eq_some.mp hb
  exact h c hc hi

theorem lifeIn_congr (h : ∀ c : Campaign, c.id = i → (c ∈ T'.rows ↔ c ∈ T.rows)) :
    lifeIn i T' = lifeIn i T := by
  refine Option.ext fun b => ?_
  rw [lifeIn_eq_some, lifeIn_eq_some]
  constructor
  · rintro ⟨c, hc, hi, hb⟩
    exact ⟨c, (h c hi).mp hc, hi, hb⟩
  · rintro ⟨c, hc, hi, hb⟩
    exact ⟨c, (h c hi).mpr hc, hi, hb⟩

/-- **A new campaign** begins, and the others stay as they are. -/
theorem lifeIn_insert (i : Uuid) (h : T.insert r = some T') :
    lifeIn i T' = lifeIn i T ∨
      i = r.id ∧ lifeIn i T = none ∧ lifeIn i T' = some (Life.of r) := by
  by_cases hi : i = r.id
  · refine Or.inr ⟨hi, lifeIn_of_not fun c hc hid => ?_,
      lifeIn_of_mem (Table.mem_insert_self h) hi.symm⟩
    exact (Table.apart_of_insert h hc).1 (hid.trans hi)
  · refine Or.inl (lifeIn_congr fun c hc => ?_)
    rw [Table.mem_insert h]
    refine or_iff_left ?_
    rintro rfl
    exact hi hc.symm

/-- **A changed campaign** goes on, and the others stay as they are. -/
theorem lifeIn_modify (i : Uuid) (hf : ∀ c, (f c).id = c.id) (h : T.modify j f = some T')
    (hc : c ∈ T.rows) (hj : c.id = j) :
    lifeIn i T' = lifeIn i T ∨
      lifeIn i T = some (Life.of c) ∧ lifeIn i T' = some (Life.of (f c)) := by
  by_cases hi : i = j
  · refine Or.inr ⟨lifeIn_of_mem hc (hj.trans hi.symm), ?_⟩
    exact lifeIn_of_mem (Table.mem_modify_self h hc hj) ((hf c).trans (hj.trans hi.symm))
  · refine Or.inl (lifeIn_congr fun q hq => ?_)
    rw [Table.mem_modify h]
    constructor
    · rintro (⟨hold, -⟩ | ⟨q', -, hk, rfl⟩)
      · exact hold
      · exact absurd (hq.symm.trans ((hf q').trans hk)) hi
    · intro hold
      exact Or.inl ⟨hold, fun hk => hi (hq.symm.trans hk)⟩

/-! ### What a request does -/

/-- The campaign is left as it is, or it grows. -/
def Advances (i : Uuid) (s s' : Database) : Prop :=
  lifeAt i s' = lifeAt i s ∨ Grows Born Moves (lifeAt i s) (lifeAt i s')

/-- A change of a campaign that is a move, if it changes its life. -/
theorem advances_of_updated (h : Updated j f s s') (hc : IsCampaign s w j c)
    (hf : ∀ c, (f c).id = c.id)
    (hmoves : Life.of (f c) = Life.of c ∨ Moves (Life.of c) (Life.of (f c))) :
    Advances i s s' := by
  obtain ⟨T, hT, rfl⟩ := h
  rcases lifeIn_modify i hf hT hc.1 hc.2.1 with hsame | ⟨hold, hnew⟩
  · exact Or.inl hsame
  have hold : lifeAt i s = some (Life.of c) := hold
  have hnew : lifeAt i (setTable s T) = some (Life.of (f c)) := hnew
  unfold Advances
  rw [hold, hnew]
  rcases hmoves with hsame | hmoves
  · exact Or.inl (by rw [hsame])
  · exact Or.inr (.moves hmoves)

theorem of_patch (data : CampaignUpdate) (c : Campaign) : Life.of (patch data c) = Life.of c := rfl

/-- **A call of the campaign service** leaves a campaign as it is, or makes it grow. -/
theorem advances_perform (i : Uuid) {call : CampaignCall} (h : (perform w call).Returns s a s') :
    Advances i s s' := by
  cases call with
  | create d ownerId data =>
    unfold perform createCampaign at h
    rw [Prog.returns_bind] at h
    obtain ⟨_, s₁, hdates, h⟩ := h
    obtain ⟨-, rfl⟩ := returns_checkDates.mp hdates
    rw [Prog.returns_bind] at h
    obtain ⟨_, s₂, hkit, h⟩ := h
    obtain ⟨-, rfl⟩ := returns_checkBrandKit.mp hkit
    obtain ⟨rfl, -, T, hT, rfl⟩ := returns_create.mp h
    rcases lifeIn_insert i hT with hsame | ⟨-, hnone, hsome⟩
    · exact Or.inl hsame
    · have hnone : lifeAt i s₂ = none := hnone
      have hsome : lifeAt i (setTable s₂ T) = some (Life.of (campaignOf d w ownerId data)) := hsome
      unfold Advances
      rw [hnone, hsome]
      exact Or.inr (.born ⟨rfl, rfl⟩)
  | update campaignId data =>
    obtain ⟨c, hc, -, -, hupd⟩ := returns_updateCampaign.mp h
    exact advances_of_updated hupd hc (fun _ => rfl) (Or.inl (of_patch data c))
  | delete d campaignId =>
    obtain ⟨c, hc, -, rfl | hupd⟩ := deleteCampaign_spec h
    · exact Or.inl rfl
    · refine advances_of_updated hupd hc (fun _ => rfl) (Or.inr ?_)
      have hlife : Life.of c = ⟨c.workspaceId, c.status, false⟩ := by simp [Life.of, hc.2.2.1]
      rw [hlife]
      exact .delete
  | changeStatus campaignId new =>
    obtain ⟨c, hc, ⟨-, -, rfl⟩ | ⟨-, hvalid, -, -, hupd⟩⟩ := returns_changeStatus.mp h
    · exact Or.inl rfl
    · refine advances_of_updated hupd hc (fun _ => rfl) (Or.inr ?_)
      have hlife : ∀ st, Life.of { c with status := st } = ⟨c.workspaceId, st, false⟩ := by
        simp [Life.of, hc.2.2.1]
      have hold : Life.of c = ⟨c.workspaceId, c.status, false⟩ := hlife c.status
      rw [hold, hlife new]
      exact .status hvalid

/-- **Every request leaves a campaign as it is, or makes it grow.** -/
theorem advances_step (i : Uuid) (s : Database) (e : Event) : Advances i s (step s e) := by
  cases e with
  | call w c =>
    rcases (perform w c).settle_cases s with ⟨a, h⟩ | ⟨hsame, -⟩
    · exact advances_perform i h
    · refine Or.inl ?_
      rw [step, hsame]
  | other body =>
    have hsame : (step s (.other body)).campaigns = s.campaigns := body.property s
    refine Or.inl ?_
    rw [lifeAt, hsame]
    rfl

/-! ### Every way to grow -/

/-- The workspace and the user are there, and the campaign, if it is there, is theirs. -/
structure Ready (w o i : Uuid) (s : Database) : Prop where
  workspace : s.workspaces.has w = true
  owner : s.users.has o = true
  own : ∀ c ∈ s.campaigns.rows, c.id = i → c.workspaceId = w ∧ c.ownerId = o ∧ c.brandKitId = none

theorem references_of_ready (hs : Ready w o i s) (hw : c.workspaceId = w) (ho : c.ownerId = o)
    (hkit : c.brandKitId = none) : Model.references s c = true := by
  show (s.workspaces.has c.workspaceId && s.users.has c.ownerId &&
    optionalRef s.brandKits c.brandKitId) = true
  rw [hw, ho, hkit, hs.workspace, hs.owner]
  rfl

theorem ready_of_updated (hs : Ready w o i s) (h : Updated j f s s')
    (hf : ∀ c, (f c).id = c.id ∧ (f c).workspaceId = c.workspaceId ∧ (f c).ownerId = c.ownerId ∧
      (f c).brandKitId = c.brandKitId) : Ready w o i s' := by
  obtain ⟨T, hT, rfl⟩ := h
  refine ⟨hs.workspace, hs.owner, fun c hc hid => ?_⟩
  rcases (Table.mem_modify hT).mp hc with ⟨hold, -⟩ | ⟨q, hq, -, rfl⟩
  · exact hs.own c hold hid
  · obtain ⟨hfid, hfw, hfo, hfk⟩ := hf q
    rw [hfw, hfo, hfk]
    exact hs.own q hq (hfid.symm.trans hid)

theorem exists_updated (s : Database) (j : Uuid)
    (hf : ∀ c, (f c).id = c.id ∧ (f c).workspaceId = c.workspaceId ∧
      (f c).campaignName = c.campaignName) : ∃ s', Updated j f s s' := by
  obtain ⟨T, hT⟩ : ∃ T, s.campaigns.modify j f = some T := by
    refine Table.exists_modify (fun c => (hf c).1) fun c q => ?_
    show (_ || _) = (_ || _)
    rw [(hf c).2.1, (hf c).2.2]
  exact ⟨_, T, hT, rfl⟩

theorem lifeAt_of_updated (h : Updated j f s s') (hc : IsCampaign s w j c)
    (hf : ∀ c, (f c).id = c.id) : lifeAt j s' = some (Life.of (f c)) := by
  obtain ⟨T, hT, rfl⟩ := h
  exact lifeIn_of_mem (Table.mem_modify_self hT hc.1 hc.2.1) ((hf c).trans hc.2.1)

theorem isCampaign_of_lifeAt {v : Uuid} {status : CampaignStatus} (hs : Ready w o i s)
    (h : lifeAt i s = some ⟨v, status, false⟩) :
    v = w ∧ ∃ c, IsCampaign s w i c ∧ c.status = status ∧ c.ownerId = o ∧ c.brandKitId = none := by
  obtain ⟨c, hc, hi, hlife⟩ := lifeIn_eq_some.mp h
  obtain ⟨hw, ho, hkit⟩ := hs.own c hc hi
  have hdeleted : c.deletedAt = none := by
    have hd := congrArg Life.deleted hlife
    simpa [Life.of] using hd
  have hv : v = w := by
    have hws := congrArg Life.workspaceId hlife
    exact hws.symm.trans hw
  exact ⟨hv, c, ⟨hc, hi, hdeleted, hw⟩, congrArg Life.status hlife, ho, hkit⟩

/-- The draws of a request that makes the campaign `i`. -/
def drawing (i : Uuid) : Draws := ⟨fun _ => i, fun _ => 0, ""⟩

theorem exists_name (T : Table Campaign) :
    ∃ name : String, ∀ c ∈ T.rows, c.campaignName ≠ name := by
  let names := (T.rows.map fun c => c.campaignName).toFinset
  obtain ⟨name, hname⟩ := Infinite.exists_notMem_finset names
  refine ⟨name, fun c hc heq => hname ?_⟩
  rw [List.mem_toFinset, ← heq]
  exact List.mem_map_of_mem hc

theorem exists_create (hs : Ready w o i s) (h : lifeAt i s = none) :
    ∃ e, lifeAt i (step s e) = some ⟨w, .draft, false⟩ ∧ Ready w o i (step s e) := by
  obtain ⟨name, hname⟩ := exists_name s.campaigns
  let c := campaignOf (drawing i) w o { campaignName := name }
  have happart : ∀ q ∈ s.campaigns.rows, Apart q c := by
    refine fun q hq => ⟨fun hid => ?_, ?_⟩
    · rw [show lifeAt i s = some (Life.of q) from lifeIn_of_mem hq hid] at h
      exact absurd h (by simp)
    · show (_ || decide (q.campaignName ≠ name)) = true
      rw [decide_eq_true (hname q hq), Bool.or_true]
  obtain ⟨T, hT⟩ := Table.exists_insert happart
  have hret : (createCampaign (drawing i) w o { campaignName := name }).Returns s c
      (setTable s T) := by
    refine Prog.returns_bind.mpr ⟨(), s, returns_checkDates.mpr ⟨trivial, rfl⟩, ?_⟩
    refine Prog.returns_bind.mpr ⟨(), s, returns_checkBrandKit.mpr ⟨trivial, rfl⟩, ?_⟩
    exact returns_create.mpr ⟨rfl, references_of_ready hs rfl rfl rfl, T, hT, rfl⟩
  have hstep : step s (.call w (.create (drawing i) o { campaignName := name })) = setTable s T :=
    Prog.settle_of_returns hret
  refine ⟨.call w (.create (drawing i) o { campaignName := name }), ?_, ?_⟩
  · rw [hstep]
    exact lifeIn_of_mem (Table.mem_insert_self hT) rfl
  · rw [hstep]
    refine ⟨hs.workspace, hs.owner, fun q hq hid => ?_⟩
    rcases (Table.mem_insert hT).mp hq with hold | rfl
    · exact hs.own q hold hid
    · exact ⟨rfl, rfl, rfl⟩

theorem exists_changeStatus {v : Uuid} {old new : CampaignStatus} (hs : Ready w o i s)
    (h : lifeAt i s = some ⟨v, old, false⟩) (hvalid : new ∈ validTransitions old) :
    ∃ e, lifeAt i (step s e) = some ⟨v, new, false⟩ ∧ Ready w o i (step s e) := by
  obtain ⟨rfl, c, hc, rfl, ho, hkit⟩ := isCampaign_of_lifeAt hs h
  obtain ⟨s', hupd⟩ : ∃ s', Updated i (fun c : Campaign => { c with status := new }) s s' :=
    exists_updated s i fun _ => ⟨rfl, rfl, rfl⟩
  have hne : c.status ≠ new := by
    intro heq
    rw [heq] at hvalid
    exact not_mem_validTransitions new hvalid
  have href : Model.references s { c with status := new } = true :=
    references_of_ready hs hc.2.2.2 ho hkit
  have hstep : step s (.call v (.changeStatus i new)) = s' :=
    Prog.settle_of_returns
      (returns_changeStatus.mpr ⟨c, hc, Or.inr ⟨hne, hvalid, rfl, href, hupd⟩⟩)
  refine ⟨.call v (.changeStatus i new), ?_, ?_⟩
  · rw [hstep, lifeAt_of_updated hupd hc fun _ => rfl]
    simp [Life.of, hc.2.2.1, hc.2.2.2]
  · rw [hstep]
    exact ready_of_updated hs hupd fun _ => ⟨rfl, rfl, rfl, rfl⟩

theorem exists_delete {v : Uuid} {status : CampaignStatus} (hs : Ready w o i s)
    (h : lifeAt i s = some ⟨v, status, false⟩) :
    ∃ e, lifeAt i (step s e) = some ⟨v, status, true⟩ ∧ Ready w o i (step s e) := by
  obtain ⟨rfl, c, hc, rfl, ho, hkit⟩ := isCampaign_of_lifeAt hs h
  obtain ⟨_, T, hT, rfl⟩ :
      ∃ s', Updated i (fun c : Campaign => { c with deletedAt := some 0 }) s s' :=
    exists_updated s i fun _ => ⟨rfl, rfl, rfl⟩
  have href : Model.references s ({ c with deletedAt := some 0 } : Campaign) = true :=
    references_of_ready hs hc.2.2.2 ho hkit
  have hmark : (softDelete c.id fun c : Campaign => { c with deletedAt := some 0 }).Returns s true
      (setTable s T) := by
    rw [hc.2.1]
    exact Prog.returns_bind_pure.mpr
      ⟨_, updateWhere_returns hc.1 hc.2.1 hc.2.2.1 rfl href hT, rfl⟩
  have hret : (deleteCampaign (drawing i) v i).Returns s { c with deletedAt := some 0 }
      (setTable s T) := by
    refine Prog.returns_bind.mpr ⟨c, s, getCampaign_returns hc, ?_⟩
    refine Prog.returns_bind.mpr ⟨true, _, hmark, ?_⟩
    refine Prog.returns_bind.mpr ⟨(), _, Prog.returns_require.mpr ⟨rfl, rfl⟩, ?_⟩
    exact Prog.returns_pure.mpr ⟨rfl, rfl⟩
  have hstep : step s (.call v (.delete (drawing i) i)) = setTable s T :=
    Prog.settle_of_returns hret
  refine ⟨.call v (.delete (drawing i) i), ?_, ?_⟩
  · rw [hstep, lifeAt_of_updated ⟨T, hT, rfl⟩ hc fun _ => rfl]
    simp [Life.of, hc.2.2.2]
  · rw [hstep]
    exact ready_of_updated hs ⟨T, hT, rfl⟩ fun _ => ⟨rfl, rfl, rfl, rfl⟩

/-- **The lives of campaigns** are the walks of the graph: whatever the requests are, a campaign's
life is one, and every one in a workspace with a user is the life of a campaign for some
requests. -/
theorem lives_are_walks {s₀ : Database} (hw : s₀.workspaces.has w = true)
    (ho : s₀.users.has o = true) (hi : ∀ c ∈ s₀.campaigns.rows, c.id ≠ i) :
    (∀ l, Walk Born Moves none (life step (lifeAt i) s₀ l)) ∧
      ∀ path, Walk Born Moves none path → (∀ a ∈ path, a.workspaceId = w) →
        ∃ l, life step (lifeAt i) s₀ l = path := by
  have hnone : lifeAt i s₀ = none := lifeIn_of_not hi
  constructor
  · intro l
    have hwalk := walk_life (I := fun _ => True) (fun _ _ _ => trivial)
      (fun s e _ => advances_step i s e) trivial l (s := s₀)
    rwa [hnone] at hwalk
  · intro path hpath hin
    have hready : Ready w o i s₀ := ⟨hw, ho, fun c hc hid => absurd hid (hi c hc)⟩
    have hown : Walk (fun a => Born a ∧ a.workspaceId = w) Moves (lifeAt i s₀) path := by
      rw [hnone]
      exact walk_of_forall (fun a ha hborn => ⟨hborn, hin a ha⟩) hpath
    refine exists_life (I := Ready w o i) moves_irrefl (fun s b hs hgrows => ?_) hready hown
    generalize hlook : lifeAt i s = p at hgrows
    cases hgrows with
    | born hborn =>
      obtain ⟨v, status, deleted⟩ := b
      obtain ⟨⟨rfl, rfl⟩, rfl⟩ := hborn
      exact exists_create hs hlook
    | moves hmoves =>
      cases hmoves with
      | status hvalid => exact exists_changeStatus hs hlook hvalid
      | delete => exact exists_delete hs hlook

/-- The studio of a user, where no campaign has been made. -/
theorem lives_are_walks_studio :
    (∀ l, Walk Born Moves none (life step (lifeAt 30) twoStudios l)) ∧
      ∀ path, Walk Born Moves none path → (∀ a ∈ path, a.workspaceId = 10) →
        ∃ l, life step (lifeAt 30) twoStudios l = path :=
  lives_are_walks (o := 1) (by decide) (by decide) (by decide)

end MarketingSuite.Campaigns.Lifecycle
