import MarketingSuite.Campaigns.Service
import MarketingSuite.Scheduler.Task
import MarketingSuite.Lib.Runs

/-! # The scheduler system

Requests to the scheduler, status changes and deletions of campaigns, and the background tasks, in
any order. A request is one step; a task takes one step for each call it awaits, and any of them may
fail. `Effect` lists what a step can do; whatever is proved of runs is proved of these cases. -/

namespace MarketingSuite.Scheduler.System

open MarketingSuite.Lib.Programs MarketingSuite.Lib.Tables MarketingSuite.Lib.Runs
open MarketingSuite.Base.Values MarketingSuite.Base.Models MarketingSuite.Base.Schema
open MarketingSuite.Repositories.Base MarketingSuite.Campaigns.Service
open MarketingSuite.Scheduler.Service MarketingSuite.Scheduler.Task

/-- A queued `execute_publish` and the call it stands before. -/
structure Running where
  job : Job
  phase : Phase
deriving DecidableEq, Repr

/-- The database and the tasks that have been queued, finished ones included. -/
structure State where
  db : Database
  tasks : List Running

/-- What can happen next. -/
inductive Event
  | request (d : Draws) (campaignId workspaceId userId : Uuid) (q : Request)
  | changeStatus (workspaceId campaignId : Uuid) (newStatus : CampaignStatus)
  | deleteCampaign (d : Draws) (workspaceId campaignId : Uuid)
  | advance (k : ℕ) (d : Draws) (fault : Fault)

/-- A request: if it is refused nothing happens, otherwise its tasks are queued. -/
def serve (s : State) (d : Draws) (campaignId workspaceId userId : Uuid) (q : Request) : State :=
  match (perform d campaignId workspaceId userId q).run s.db with
  | (.ok a, db) => ⟨db, s.tasks ++ a.2.map fun j => ⟨j, .get⟩⟩
  | (.error _, _) => s

/-- The next call of the `k`-th task. -/
def advance (str : Exc → String) (s : State) (k : ℕ) (d : Draws) (fault : Fault) : State :=
  match s.tasks[k]? with
  | none => s
  | some t =>
    match (next str d fault t.job t.phase).run s.db with
    | (.ok ph, db) => ⟨db, s.tasks.set k ⟨t.job, ph⟩⟩
    | (.error _, _) => s

/-- One step. -/
def step (str : Exc → String) (s : State) : Event → State
  | .request d c w v q => serve s d c w v q
  | .changeStatus w c new => ⟨(changeStatus w c new).settle s.db, s.tasks⟩
  | .deleteCampaign d w c => ⟨(deleteCampaign d w c).settle s.db, s.tasks⟩
  | .advance k d fault => advance str s k d fault

/-! ### What a call of a task does -/

/-- The call takes effect. -/
def goesThrough {α : Type} (fault : Fault) (p : Svc α) (s : Database) : Bool :=
  match fault with
  | .before _ => false
  | _ => p.succeeds s

/-- The row object that a phase holds. -/
def held : Phase → Option CampaignSchedule
  | .update r => some r
  | .exceptUpdate _ r => some r
  | _ => none

/-- The row that the call of a phase writes, and the status it gives it. -/
def writes (str : Exc → String) (fault : Fault) (s : Database) :
    Phase → Option (Uuid × ScheduleStatus)
  | .update r =>
    if goesThrough fault (update r.id markPublished) s then some (r.id, .published) else none
  | .exceptUpdate e r =>
    if goesThrough fault (update r.id (markFailed (str e))) s then some (r.id, .failed) else none
  | _ => none

/-- The state after a call of a task in the phase `ph`, case by case. -/
inductive Moves (str : Exc → String) (fault : Fault) (s : Database) (j : Job) (ph : Phase) :
    Phase → Database → Prop
  | quiet {ph'} (hw : writes str fault s ph = none) (haudit : ph' ≠ .audit)
    (hrow : ∀ r, held ph' = some r → IsSchedule s j.campaignId j.workspaceId r) :
    Moves str fault s j ph ph' s
  | wrote {ph' r st f T} (hw : writes str fault s ph = some (r.id, st)) (hheld : held ph = some r)
    (hex : ∃ q ∈ s.campaignSchedules.rows, q.id = r.id) (hf : Sets st f)
    (hT : s.campaignSchedules.modify r.id f = some T)
    (haudit : ph' = .audit → fault = .none ∧ st = .published)
    (hrow : held ph' = none) :
    Moves str fault s j ph ph' { s with campaignSchedules := T }
  | logged {ph' log} (hw : writes str fault s ph = none)
    (hlog : log.resourceType = "CAMPAIGN_SCHEDULE" ∧ log.resourceId = j.campaignId)
    (hact : (log.action = "PUBLISH_SUCCESS" ∧ ph = .audit) ∨ log.action = "PUBLISH_FAILED")
    (haudit : ph' ≠ .audit) (hrow : held ph' = none) :
    Moves str fault s j ph ph' { s with auditLogs := s.auditLogs ++ [log] }

section Calls

variable {str : Exc → String} {d : Draws} {fault : Fault} {j : Job} {s s' : Database}
  {ph ph' : Phase}

/-- A call that leaves no trace when it raises: it took effect, whatever came after it, or nothing
happened and it failed. -/
theorem call_spec {α : Type} {p : Svc α} {nxt : α → Phase} {failed : Exc → Phase} (hp : p.Atomic)
    (h : (call fault p nxt failed).Returns s ph s') :
    (goesThrough fault p s = true ∧ ∃ a, p.Returns s a s' ∧
      ((fault = .none ∧ ph = nxt a) ∨ ∃ e, fault = .after e ∧ ph = failed e)) ∨
    goesThrough fault p s = false ∧ s' = s ∧ ∃ e, ph = failed e := by
  rcases Prog.returns_handle.mp h with h | ⟨e, t, hr, h⟩
  · rw [Prog.returns_bind] at h
    obtain ⟨a, t, ha, h⟩ := h
    obtain ⟨rfl, rfl⟩ := Prog.returns_pure.mp h
    cases fault with
    | none => exact Or.inl ⟨Prog.succeeds_of_returns ha, a, ha, Or.inl ⟨rfl, rfl⟩⟩
    | before e => exact absurd ha (by simp [attempt])
    | after e => exact absurd ha (by simp [attempt])
  · obtain ⟨rfl, rfl⟩ := Prog.returns_pure.mp h
    have hr' : (attempt fault p).Raises s e s' := by
      rcases Prog.raises_bind.mp hr with hr | ⟨a, t', -, hr⟩
      · exact hr
      · exact absurd hr Prog.not_raises_pure
    cases fault with
    | none =>
      refine Or.inr ⟨?_, hp s e s' hr', e, rfl⟩
      unfold goesThrough Prog.succeeds
      rw [show p s = (.error e, s') from hr']
    | before e' => exact Or.inr ⟨rfl, Prog.atomic_raise e' s e s' hr', e, rfl⟩
    | after e' =>
      rcases Prog.raises_bind.mp hr' with hr' | ⟨a, t', ha, hr'⟩
      · refine Or.inr ⟨?_, hp s e s' hr', e, rfl⟩
        unfold goesThrough Prog.succeeds
        rw [show p s = (.error e, s') from hr']
      · obtain ⟨he, rfl⟩ := Prod.mk.inj hr'
        obtain rfl := Except.error.inj he
        exact Or.inl ⟨Prog.succeeds_of_returns ha, a, ha, Or.inr ⟨_, rfl, rfl⟩⟩

theorem call_returns {α : Type} (f : Fault) (p : Svc α) (nxt : α → Phase) (failed : Exc → Phase)
    (s : Database) : ∃ ph' s', (call f p nxt failed).Returns s ph' s' := by
  unfold Prog.Returns
  rw [call_apply]
  rcases attempt f p s with ⟨e | a, t⟩
  · exact ⟨failed e, t, rfl⟩
  · exact ⟨nxt a, t, rfl⟩

/-- A task never dies of an exception: its last handler is the end of the task. -/
theorem next_returns (str : Exc → String) (d : Draws) (fault : Fault) (j : Job) (ph : Phase)
    (s : Database) : ∃ ph' s', (next str d fault j ph).Returns s ph' s' := by
  cases ph with
  | finished => exact ⟨.finished, s, rfl⟩
  | _ => exact call_returns _ _ _ _ s

theorem moves_of_lookup {nxt : Option CampaignSchedule → Phase} {failed : Exc → Phase}
    (h : (call fault (getByCampaignId j.campaignId j.workspaceId) nxt failed).Returns s ph' s')
    (hw : writes str fault s ph = none) (hnxt : ∀ o, nxt o ≠ .audit ∧ held (nxt o) = o)
    (hfail : ∀ e, failed e ≠ .audit ∧ held (failed e) = none) :
    Moves str fault s j ph ph' s' := by
  have hquiet : ∀ e, ph' = failed e → Moves str fault s j ph ph' s := by
    rintro e rfl
    refine Moves.quiet hw (hfail e).1 fun r hr => ?_
    rw [(hfail e).2] at hr
    exact absurd hr (by simp)
  rcases call_spec atomic_selectOne h with ⟨-, o, ho, hph⟩ | ⟨-, rfl, e, he⟩
  · obtain ⟨rfl, hrow⟩ := getByCampaignId_spec ho
    rcases hph with ⟨-, rfl⟩ | ⟨e, -, he⟩
    · refine Moves.quiet hw (hnxt o).1 fun r hr => ?_
      rw [(hnxt o).2] at hr
      exact (hrow r).mp hr
    · exact hquiet e he
  · exact hquiet e he

theorem moves_of_update {r : CampaignSchedule} {st : ScheduleStatus}
    {f : CampaignSchedule → CampaignSchedule} {nxt : Phase} {failed : Exc → Phase}
    (h : (call fault (update r.id f) (fun _ => nxt) failed).Returns s ph' s')
    (hw : writes str fault s ph = if goesThrough fault (update r.id f) s then some (r.id, st)
      else none) (hheld : held ph = some r) (hf : Sets st f)
    (hnxt : held nxt = none ∧ (nxt = .audit → st = .published))
    (hfail : ∀ e, failed e ≠ .audit ∧ held (failed e) = none) :
    Moves str fault s j ph ph' s' := by
  rcases call_spec atomic_update h with ⟨hgo, a, ha, hph⟩ | ⟨hgo, rfl, e, rfl⟩
  · rw [if_pos hgo] at hw
    obtain ⟨q, hq, hk, rfl, -, T, hT, rfl⟩ := returns_update.mp ha
    have hph' : held ph' = none ∧ (ph' = .audit → fault = .none ∧ st = .published) := by
      rcases hph with ⟨hnone, rfl⟩ | ⟨e, -, rfl⟩
      · exact ⟨hnxt.1, fun hau => ⟨hnone, hnxt.2 hau⟩⟩
      · exact ⟨(hfail e).2, fun hau => absurd hau (hfail e).1⟩
    exact Moves.wrote hw hheld ⟨q, hq, hk⟩ hf hT hph'.2 hph'.1
  · rw [hgo] at hw
    refine Moves.quiet hw (hfail e).1 fun r' hr' => ?_
    rw [(hfail e).2] at hr'
    exact absurd hr' (by simp)

theorem moves_of_logAudit {action : String} {new : Option (List (String × Json))} {t : Time}
    {nxt : Phase} {failed : Exc → Phase}
    (h : (call fault (logAudit j.workspaceId j.userId action j.campaignId none new t)
      (fun _ => nxt) failed).Returns s ph' s') (hw : writes str fault s ph = none)
    (hact : (action = "PUBLISH_SUCCESS" ∧ ph = .audit) ∨ action = "PUBLISH_FAILED")
    (hnxt : nxt ≠ .audit ∧ held nxt = none)
    (hfail : ∀ e, failed e ≠ .audit ∧ held (failed e) = none) :
    Moves str fault s j ph ph' s' := by
  rcases call_spec (Prog.atomic_modify _) h with ⟨-, a, ha, hph⟩ | ⟨-, rfl, e, rfl⟩
  · obtain ⟨log, hlog, hty, hid, -, rfl⟩ := returns_logAudit ha
    rw [← hlog] at hact
    rcases hph with ⟨-, rfl⟩ | ⟨e, -, rfl⟩
    · exact Moves.logged hw ⟨hty, hid⟩ hact hnxt.1 hnxt.2
    · exact Moves.logged hw ⟨hty, hid⟩ hact (hfail e).1 (hfail e).2
  · refine Moves.quiet hw (hfail e).1 fun r hr => ?_
    rw [(hfail e).2] at hr
    exact absurd hr (by simp)

theorem moves_of_notify {nxt : Phase} {failed : Exc → Phase}
    (h : (call fault notifyCampaignPublished (fun _ => nxt) failed).Returns s ph' s')
    (hw : writes str fault s ph = none) (hnxt : nxt ≠ .audit ∧ held nxt = none)
    (hfail : ∀ e, failed e ≠ .audit ∧ held (failed e) = none) :
    Moves str fault s j ph ph' s' := by
  have hph : s' = s ∧ ph' ≠ .audit ∧ held ph' = none := by
    rcases call_spec (Prog.atomic_pure ()) h with ⟨-, a, ha, hph⟩ | ⟨-, rfl, e, rfl⟩
    · obtain ⟨-, rfl⟩ := Prog.returns_pure.mp ha
      rcases hph with ⟨-, rfl⟩ | ⟨e, -, rfl⟩
      · exact ⟨rfl, hnxt⟩
      · exact ⟨rfl, hfail e⟩
    · exact ⟨rfl, hfail e⟩
  obtain ⟨rfl, hau, hh⟩ := hph
  refine Moves.quiet hw hau fun r hr => ?_
  rw [hh] at hr
  exact absurd hr (by simp)

/-- **A call of a task** leaves the rows alone, writes a status into its schedule, or logs. -/
theorem moves_of_next (h : (next str d fault j ph).Returns s ph' s') :
    Moves str fault s j ph ph' s' := by
  have hexc : ∀ e, Phase.exceptGet e ≠ .audit ∧ held (.exceptGet e) = none :=
    fun _ => ⟨nofun, rfl⟩
  have hfin : ∀ _ : Exc, Phase.finished ≠ .audit ∧ held .finished = none := fun _ => ⟨nofun, rfl⟩
  cases ph with
  | get =>
    refine moves_of_lookup h rfl (fun o => ?_) hexc
    cases o <;> exact ⟨nofun, rfl⟩
  | update r =>
    unfold next at h
    exact moves_of_update h rfl rfl (fun _ => ⟨rfl, rfl, rfl, rfl⟩) ⟨rfl, fun _ => rfl⟩ hexc
  | audit =>
    unfold next at h
    exact moves_of_logAudit h rfl (Or.inl ⟨rfl, rfl⟩) ⟨nofun, rfl⟩ hexc
  | notify =>
    unfold next at h
    exact moves_of_notify h rfl ⟨nofun, rfl⟩ hexc
  | exceptGet e =>
    refine moves_of_lookup h rfl (fun o => ?_) hfin
    cases o <;> exact ⟨nofun, rfl⟩
  | exceptUpdate e r =>
    unfold next at h
    exact moves_of_update h rfl rfl (fun _ => ⟨rfl, rfl, rfl, rfl⟩) ⟨rfl, nofun⟩ hfin
  | exceptAudit e =>
    unfold next at h
    exact moves_of_logAudit h rfl (Or.inr rfl) ⟨nofun, rfl⟩ hfin
  | exceptNotify e =>
    unfold next at h
    exact moves_of_notify h rfl ⟨nofun, rfl⟩ hfin
  | finished =>
    obtain ⟨rfl, rfl⟩ := Prog.returns_pure.mp h
    exact Moves.quiet rfl nofun nofun

end Calls

/-! ### What a step does -/

/-- Every campaign is still there, in its workspace. -/
def CampaignsKept (s s' : Database) : Prop :=
  ∀ k ∈ s.campaigns.rows, ∃ k' ∈ s'.campaigns.rows, k'.id = k.id ∧ k'.workspaceId = k.workspaceId

/-- The state after a step that started in `s`, case by case. -/
inductive Effect (str : Exc → String) (s : State) : Event → State → Prop
  | refused {e} : Effect str s e s
  | served {d c w v q a db} (h : Served s.db d c w v q a db) :
    Effect str s (.request d c w v q)
      ⟨db, s.tasks ++ (q.queues ⟨c, w, v⟩).map fun j => ⟨j, .get⟩⟩
  | campaign {e C} (he : ∀ d c w v q, e ≠ .request d c w v q) (he' : ∀ k d f, e ≠ .advance k d f)
    (hC : CampaignsKept s.db { s.db with campaigns := C }) :
    Effect str s e ⟨{ s.db with campaigns := C }, s.tasks⟩
  | moved {k d fault t ph db} (ht : s.tasks[k]? = some t)
    (hm : Moves str fault s.db t.job t.phase ph db) :
    Effect str s (.advance k d fault) ⟨db, s.tasks.set k ⟨t.job, ph⟩⟩

variable {str : Exc → String} {s : State}

theorem campaignsKept_of_updated {i : Uuid} {f : Campaign → Campaign} {db db' : Database}
    (h : Updated i f db db') (hf : ∀ k, (f k).id = k.id ∧ (f k).workspaceId = k.workspaceId) :
    ∃ C, CampaignsKept db { db with campaigns := C } ∧ db' = { db with campaigns := C } := by
  obtain ⟨C, hC, rfl⟩ := h
  exact ⟨C, Table.exists_after_modify hC (fun _ => ⟨rfl, rfl⟩) fun k _ _ => hf k, rfl⟩

theorem effect_serve (d : Draws) (c w v : Uuid) (q : Request) :
    Effect str s (.request d c w v q) (serve s d c w v q) := by
  rcases h : (perform d c w v q).run s.db with ⟨e | a, db⟩
  · simp only [serve, h]
    exact Effect.refused
  · have hserved := perform_spec h
    simp only [serve, h, hserved.queued]
    exact Effect.served hserved

theorem effect_advance (k : ℕ) (d : Draws) (fault : Fault) :
    Effect str s (.advance k d fault) (advance str s k d fault) := by
  rcases ht : s.tasks[k]? with _ | t
  · simp only [advance, ht]
    exact Effect.refused
  · rcases h : (next str d fault t.job t.phase).run s.db with ⟨e | ph, db⟩
    · simp only [advance, ht, h]
      exact Effect.refused
    · simp only [advance, ht, h]
      exact Effect.moved ht (moves_of_next h)

theorem advance_eq (str : Exc → String) {k : ℕ} {t : Running} (ht : s.tasks[k]? = some t)
    (d : Draws) (fault : Fault) :
    ∃ ph db, Moves str fault s.db t.job t.phase ph db ∧
      advance str s k d fault = ⟨db, s.tasks.set k ⟨t.job, ph⟩⟩ := by
  obtain ⟨ph, db, h⟩ := next_returns str d fault t.job t.phase s.db
  refine ⟨ph, db, moves_of_next h, ?_⟩
  have hrun : (next str d fault t.job t.phase).run s.db = (.ok ph, db) := h
  simp only [advance, ht, hrun]

theorem advance_none {k : ℕ} (ht : s.tasks[k]? = none) (d : Draws) (fault : Fault) :
    advance str s k d fault = s := by
  simp only [advance, ht]

theorem status_of_writes {fault : Fault} {db : Database} {ph : Phase} {i : Uuid}
    {st : ScheduleStatus} (h : writes str fault db ph = some (i, st)) :
    st = .published ∨ st = .failed := by
  cases ph with
  | update r =>
    simp only [writes] at h
    split_ifs at h
    exact Or.inl (Prod.mk.inj (Option.some.inj h)).2.symm
  | exceptUpdate e r =>
    simp only [writes] at h
    split_ifs at h
    exact Or.inr (Prod.mk.inj (Option.some.inj h)).2.symm
  | _ => exact absurd h (by simp [writes])

/-! ### The rows after a step -/

theorem mem_of_modified {T T' : Table CampaignSchedule} {r : CampaignSchedule}
    {f : CampaignSchedule → CampaignSchedule} (hr : r ∈ T.rows) (h : T.modify r.id f = some T')
    {q : CampaignSchedule} : q ∈ T'.rows ↔ (q ∈ T.rows ∧ q.id ≠ r.id) ∨ q = f r := by
  rw [Table.mem_modify h]
  constructor
  · rintro (⟨hq, hne⟩ | ⟨q', hq', hk, rfl⟩)
    · exact Or.inl ⟨hq, hne⟩
    · rw [T.eq_of_key_eq hq' hr hk]
      exact Or.inr rfl
  · rintro (⟨hq, hne⟩ | rfl)
    · exact Or.inl ⟨hq, hne⟩
    · exact Or.inr ⟨r, hr, rfl, rfl⟩

theorem mem_of_rewritten {db db' : Database} {r : CampaignSchedule}
    {f : CampaignSchedule → CampaignSchedule} (hr : r ∈ db.campaignSchedules.rows)
    (h : Rewritten db r f db') {q : CampaignSchedule} : q ∈ db'.campaignSchedules.rows ↔
      (q ∈ db.campaignSchedules.rows ∧ q.id ≠ r.id) ∨ q = f r := by
  obtain ⟨-, T, hT, log, -, rfl⟩ := h
  exact mem_of_modified hr hT

theorem mem_of_added {db db' : Database} {r : CampaignSchedule} (h : Added db r db')
    {q : CampaignSchedule} :
    q ∈ db'.campaignSchedules.rows ↔ q ∈ db.campaignSchedules.rows ∨ q = r := by
  obtain ⟨-, T, hT, log, -, rfl⟩ := h
  exact Table.mem_insert hT

theorem id_ne_of_added {db db' : Database} {r q : CampaignSchedule} (h : Added db r db')
    (hq : q ∈ db.campaignSchedules.rows) : q.id ≠ r.id := by
  obtain ⟨-, T, hT, -⟩ := h
  exact (Table.apart_of_insert hT hq).1

/-- Every schedule is still there, of its campaign and in its workspace. -/
def SchedulesKept (s s' : Database) : Prop :=
  ∀ r ∈ s.campaignSchedules.rows, ∃ r' ∈ s'.campaignSchedules.rows,
    r'.id = r.id ∧ r'.campaignId = r.campaignId ∧ r'.workspaceId = r.workspaceId

theorem schedulesKept_of_modify {db db' : Database} {i : Uuid} {st : ScheduleStatus}
    {f : CampaignSchedule → CampaignSchedule} (hf : Sets st f)
    (h : db.campaignSchedules.modify i f = some db'.campaignSchedules) : SchedulesKept db db' :=
  Table.exists_after_modify h (fun _ => ⟨rfl, rfl, rfl⟩) fun r _ _ => (hf r).2

theorem schedulesKept_of_served {db db' : Database} {d : Draws} {c w v : Uuid} {q : Request}
    {a : CampaignSchedule × List Job} (h : Served db d c w v q a db') : SchedulesKept db db' := by
  rcases h.row with ⟨r, -, -, -, -, T, hT, log, -, rfl⟩ | ⟨-, -, -, hadd⟩
  · exact schedulesKept_of_modify (sets_change v q) hT
  · exact fun r hr => ⟨r, (mem_of_added hadd).mpr (Or.inl hr), rfl, rfl, rfl⟩

theorem schedulesKept_of_effect {e : Event} {s' : State} (h : Effect str s e s') :
    SchedulesKept s.db s'.db := by
  have hrefl : SchedulesKept s.db s.db := fun r hr => ⟨r, hr, rfl, rfl, rfl⟩
  cases h with
  | refused => exact hrefl
  | served h => exact schedulesKept_of_served h
  | campaign _ _ _ => exact hrefl
  | moved ht hm =>
    cases hm with
    | quiet => exact hrefl
    | wrote _ _ _ hf hT _ _ => exact schedulesKept_of_modify hf hT
    | logged => exact hrefl

theorem effect_settle {α : Type} {p : Svc α} {e : Event} (he : ∀ d c w v q, e ≠ .request d c w v q)
    (he' : ∀ k d f, e ≠ .advance k d f)
    (hp : ∀ a db, p.Returns s.db a db → db = s.db ∨
      ∃ C, CampaignsKept s.db { s.db with campaigns := C } ∧ db = { s.db with campaigns := C }) :
    Effect str s e ⟨p.settle s.db, s.tasks⟩ := by
  rcases p.settle_cases s.db with ⟨a, h⟩ | ⟨h, -⟩
  · rcases hp a _ h with h | ⟨C, hC, h⟩
    · rw [h]
      exact Effect.refused
    · rw [h]
      exact Effect.campaign he he' hC
  · rw [h]
    exact Effect.refused

/-- **The step lemma**: a step has one of the effects. -/
theorem effect_step (str : Exc → String) (s : State) (e : Event) :
    Effect str s e (step str s e) := by
  cases e with
  | request d c w v q => exact effect_serve d c w v q
  | changeStatus w c new =>
    refine effect_settle nofun nofun fun a db h => ?_
    obtain ⟨k, -, ⟨-, -, h⟩ | ⟨-, -, -, -, h⟩⟩ := returns_changeStatus.mp h
    · exact Or.inl h
    · exact Or.inr (campaignsKept_of_updated h fun _ => ⟨rfl, rfl⟩)
  | deleteCampaign d w c =>
    refine effect_settle nofun nofun fun a db h => ?_
    obtain ⟨k, -, -, h | h⟩ := deleteCampaign_spec h
    · exact Or.inl h
    · exact Or.inr (campaignsKept_of_updated h fun _ => ⟨rfl, rfl⟩)
  | advance k d fault => exact effect_advance k d fault

/-! ### A campaign of the first workspace -/

/-- The campaign 30, which nobody has scheduled. -/
def launching : State := ⟨launched, []⟩

/-- Its owner's request to publish it now, which makes the schedule 40. -/
def publishLaunch : Event := .request (drawsFrom 40 1 "") 30 10 1 .publish

/-- The next call of the `k`-th task, which goes well. -/
def onward (k : ℕ) : Event := .advance k (drawsFrom 0 2 "") .none

end MarketingSuite.Scheduler.System
