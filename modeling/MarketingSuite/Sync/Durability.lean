import MarketingSuite.Jobs.Worker
import MarketingSuite.Sync.Results

/-! # Durability of a completed sync

`app/infrastructure/celery/tasks/integration.py`: the task runs `execute_sync_job` in a session of
its own, which it closes without a commit, between the moves of the worker, which commits its
session. So what a completed job wrote is there afterwards exactly if it was there before. -/

namespace MarketingSuite.Sync.Durability

open MarketingSuite.Lib.Programs MarketingSuite.Lib.Tables MarketingSuite.Lib.Sessions
open MarketingSuite.Lib.Upserts
open MarketingSuite.Base.Values MarketingSuite.Base.Models MarketingSuite.Base.Schema
open MarketingSuite.Base.Payloads MarketingSuite.Repositories.Base MarketingSuite.Jobs.Worker
open MarketingSuite.Sync.Engine MarketingSuite.Sync.Accounts MarketingSuite.Sync.Results

/-- `run_sync`. -/
def runSync (env : Env) (kwargs : Dict) : Svc Json :=
  Session.serve do
    let result ← Session.exec (executeSyncJob env kwargs)
    pure (.obj result)

/-- `kwargs.get("job_execution_id")`. -/
def executionId (kwargs : Dict) : Json := (kwargs.lookup "job_execution_id").getD .null

/-- `integration_sync_task`. -/
def integrationSyncTask (env : Env) (d : Draws) (kwargs : Dict) : Svc Json :=
  executeJob d env.textOf (executionId kwargs) (runSync env kwargs)

/-- The state that a fresh session sees after the task. -/
def after (env : Env) (d : Draws) (kwargs : Dict) (s : Database) : Database :=
  ((integrationSyncTask env d kwargs).run s).2

/-- How far `execute_sync_job` comes: it calls the connector of a connection of a workspace, with
this outcome. -/
structure Call where
  workspaceId : Uuid
  connection : IntegrationConnection
  outcome : Except Exc Dict

/-- The call of the connector that a payload leads to. -/
def callOf (env : Env) (payload : Dict) (s : Database) : Except Exc Call := do
  let workspaceId ← item payload "workspace_id"
  let workspaceId ← uuidOf workspaceId
  let provider ← item payload "provider"
  let provider ← bindText env.strOf provider
  match (s.integrationConnections.select fun c => c.workspaceId = workspaceId &&
      some c.provider = provider).head? with
  | none => .error (.raised "Connection lost before sync could execute.")
  | some connection => do
    let sync ← getConnectorInstance env connection
    return ⟨workspaceId, connection, sync ((payload.lookup "sync_type").getD (.str "full"))⟩

/-- The task function is called: it is not, for an execution id that is not even a string. -/
def RunsSync (kwargs : Dict) : Prop :=
  isTruthy (executionId kwargs) = false ∨ (∃ jobId, uuidOf (executionId kwargs) = .ok jobId) ∨
    ∃ text, uuidOf (executionId kwargs) = .error (.valueError text)

/-- A completed sync is durable: a later session sees every account row that the sync's session saw
at its end; and if the connector rejected the token, a later session sees an expired connection. -/
def Durable (env : Env) (d : Draws) (kwargs : Dict) (s : Database) : Prop :=
  (∀ jobId, uuidOf (executionId kwargs) = .ok jobId → Completed jobId (after env d kwargs s) →
    ∀ result v, (executeSyncJob env kwargs).Returns (started d jobId s) result v →
      ∀ a ∈ v.socialAccounts.rows, a ∈ (after env d kwargs s).socialAccounts.rows) ∧
  ∀ call text, RunsSync kwargs → callOf env kwargs s = .ok call →
    call.outcome = .error (.oauthToken text) →
    ∃ c ∈ (after env d kwargs s).integrationConnections.rows,
      c.id = call.connection.id ∧ c.status = .expired

/-- A sync has nothing to write: every account that it names is stored, as the last entry for it
would leave it, and a connection whose token is rejected is expired. -/
def NothingToWrite (env : Env) (kwargs : Dict) (s : Database) : Prop :=
  (∀ jobId call result x, uuidOf (executionId kwargs) = .ok jobId → HasJob jobId s →
    callOf env kwargs s = .ok call → call.outcome = .ok result →
    accountsOf env call.connection result = .ok x →
    (x.accounts ≠ [] → s.workspaces.has call.workspaceId = true) →
    NewIds env call.workspaceId x.provider x.accounts s.socialAccounts →
    ∀ account a, lastFor AccountData.accountId x.accounts account = some a →
      ∃ r, stored s.socialAccounts call.workspaceId x.provider account = some r ∧
        a.write x.refresh r = r) ∧
  ∀ call text, RunsSync kwargs → callOf env kwargs s = .ok call →
    call.outcome = .error (.oauthToken text) → call.connection.status = .expired

variable {env : Env} {d : Draws} {kwargs : Dict} {s : Database}

/-! ### The task leaves everything but the job alone -/

/-- The tables besides that of the jobs. -/
def others (s : Database) : Table Workspace × Table SocialAccount × Table IntegrationConnection :=
  (s.workspaces, s.socialAccounts, s.integrationConnections)

theorem frames_runSync {δ : Type} {f : Database → δ} : (runSync env kwargs).Frames f := by
  intro c
  have h : Session.Uncommitted (do
      let result ← Session.exec (executeSyncJob env kwargs)
      pure (Json.obj result)) :=
    Prog.frames_bind (Session.uncommitted_exec _) fun _ => Prog.frames_pure _
  unfold runSync
  rw [Session.serve_of_uncommitted h]

theorem frames_mark {jobId : Uuid} {f : JobExecution → JobExecution} :
    (updateWhere jobId (fun _ => true) f).Frames others := frames_updateWhere fun _ _ => rfl

/-- **The task writes nothing but the row of the job.** -/
theorem others_after : others (after env d kwargs s) = others s := by
  have htrack : ∀ jobId, (Session.serve (track d jobId env.textOf (runSync env kwargs))).Frames
      others := by
    intro jobId
    refine Session.frames_serve (Session.keeps_bind (Session.keeps_exec frames_mark) fun job => ?_)
    rcases job with _ | j
    · exact Session.keeps_outside frames_runSync
    · refine Session.keeps_bind Session.keeps_commit fun _ => Session.keeps_handle ?_ fun e => ?_
      · refine Session.keeps_bind (Session.keeps_outside frames_runSync) fun r => ?_
        refine Session.keeps_bind (Session.keeps_exec frames_mark) fun _ => ?_
        exact Session.keeps_bind Session.keeps_commit fun _ => Session.keeps_pure r
      · refine Session.keeps_bind (Session.keeps_exec frames_mark) fun _ => ?_
        exact Session.keeps_bind Session.keeps_commit fun _ => Session.keeps_raise _
  unfold after integrationSyncTask executeJob Prog.run
  split_ifs
  · exact frames_runSync s
  · rcases uuidOf (executionId kwargs) with e | jobId
    · cases e with
      | valueError text => exact frames_runSync s
      | _ => rfl
    · exact htrack jobId s

theorem others_started (jobId : Uuid) : others (started d jobId s) = others s := frames_mark s

/-! ### What the sync does -/

theorem callOf_congr {s' : Database} (h : others s' = others s) :
    callOf env kwargs s' = callOf env kwargs s := by
  have h : s'.integrationConnections = s.integrationConnections := congrArg (fun o => o.2.2) h
  unfold callOf
  rw [h]

/-- **The call**: of the first connection of the workspace and the provider, with its token. -/
theorem callOf_spec {call : Call} (h : callOf env kwargs s = .ok call) :
    (s.integrationConnections.select fun c => c.workspaceId = call.workspaceId &&
      some c.provider = some call.connection.provider).head? = some call.connection ∧
    call.outcome = env.connector (env.lower call.connection.provider)
      (call.connection.accessToken.map (decryptToken env))
      ((kwargs.lookup "sync_type").getD (.str "full")) := by
  obtain ⟨_, -, h⟩ := Prog.bind_eq_ok.mp h
  obtain ⟨w, -, h⟩ := Prog.bind_eq_ok.mp h
  obtain ⟨_, -, h⟩ := Prog.bind_eq_ok.mp h
  obtain ⟨provider, -, h⟩ := Prog.bind_eq_ok.mp h
  rcases hhead : (s.integrationConnections.select fun c => c.workspaceId = w &&
      some c.provider = provider).head? with _ | connection
  · rw [hhead] at h
    exact absurd h (by simp)
  · rw [hhead] at h
    obtain ⟨sync, hsync, h⟩ := Prog.bind_eq_ok.mp h
    obtain rfl := Except.ok.inj h
    have hprovider : some connection.provider = provider := by
      have hsel := (Table.mem_select.mp (List.mem_of_mem_head? hhead)).2
      rw [Bool.and_eq_true, decide_eq_true_eq, decide_eq_true_eq] at hsel
      exact hsel.2
    refine ⟨by rw [hprovider]; exact hhead, ?_⟩
    simp only [getConnectorInstance] at hsync
    split_ifs at hsync
    rw [← Except.ok.inj hsync]

theorem mem_of_callOf {call : Call} (h : callOf env kwargs s = .ok call) :
    call.connection ∈ s.integrationConnections.rows :=
  (Table.mem_select.mp (List.mem_of_mem_head? (callOf_spec h).1)).1

/-- What `execute_sync_job` does with the outcome of the connector. -/
def conclude (env : Env) (call : Call) : Svc Dict :=
  match call.outcome with
  | .ok result => do
    persist env call.workspaceId call.connection result
    pure result
  | .error (.oauthToken text) => do
    let _ ← update call.connection.id fun c : IntegrationConnection => { c with status := .expired }
    Prog.raise (.oauthToken text)
  | .error e => Prog.raise e

theorem executeSyncJob_eq :
    executeSyncJob env kwargs s = (Prog.ofExcept (callOf env kwargs s) >>= conclude env) s := by
  unfold executeSyncJob callOf
  rcases item kwargs "workspace_id" with e | w
  · rfl
  rw [Prog.ok_bind, Prog.ofExcept_ok_bind]
  rcases uuidOf w with e | w
  · rfl
  rw [Prog.ok_bind, Prog.ofExcept_ok_bind]
  rcases item kwargs "provider" with e | provider
  · rfl
  rw [Prog.ok_bind, Prog.ofExcept_ok_bind]
  rcases bindText env.strOf provider with e | provider
  · rfl
  rw [Prog.ok_bind, Prog.ofExcept_ok_bind]
  rcases hhead : (s.integrationConnections.select fun c => c.workspaceId = w &&
      some c.provider = provider).head? with _ | connection
  · have hget : getByWorkspaceAndProvider w provider s = (.ok none, s) :=
      Prog.returns_bind.mpr ⟨_, s, Prog.returns_gets.mpr ⟨rfl, rfl⟩,
        Prog.returns_pure.mpr ⟨hhead.symm, rfl⟩⟩
    simp only [bind, hget]
    rfl
  · have hget : getByWorkspaceAndProvider w provider s = (.ok (some connection), s) :=
      Prog.returns_bind.mpr ⟨_, s, Prog.returns_gets.mpr ⟨rfl, rfl⟩,
        Prog.returns_pure.mpr ⟨hhead.symm, rfl⟩⟩
    simp only [bind, hget]
    rcases hconn : getConnectorInstance env connection with e | sync
    · simp [orRaise, pure, Prog.ofExcept, hconn, Except.bind]
    · simp [orRaise, pure, Prog.ofExcept, hconn, Except.bind, Except.pure, conclude]
      rfl

/-- **`execute_sync_job`**: the connector gives a result, and the bridges go through. -/
theorem returns_executeSyncJob {result : Dict} {v : Database} :
    (executeSyncJob env kwargs).Returns s result v ↔ ∃ call, callOf env kwargs s = .ok call ∧
      call.outcome = .ok result ∧
      (persist env call.workspaceId call.connection result).Returns s () v := by
  have hiff : (executeSyncJob env kwargs).Returns s result v ↔
      (Prog.ofExcept (callOf env kwargs s) >>= conclude env).Returns s result v := by
    unfold Prog.Returns
    rw [executeSyncJob_eq]
  rw [hiff, Prog.returns_bind]
  constructor
  · rintro ⟨call, t, hcall, h⟩
    obtain ⟨hcall, rfl⟩ := Prog.returns_ofExcept.mp hcall
    refine ⟨call, hcall, ?_⟩
    unfold conclude at h
    rcases hout : call.outcome with e | r
    · rw [hout] at h
      cases e with
      | oauthToken text => simp at h
      | _ => simp at h
    · rw [hout] at h
      obtain ⟨_, hp, rfl⟩ := Prog.returns_bind_pure.mp h
      exact ⟨rfl, hp⟩
  · rintro ⟨call, hcall, hout, hp⟩
    refine ⟨call, s, Prog.returns_ofExcept.mpr ⟨hcall, rfl⟩, ?_⟩
    unfold conclude
    rw [hout]
    exact Prog.returns_bind_pure.mpr ⟨(), hp, rfl⟩

/-! ### When the task is durable -/

theorem succeeds_runSync : (runSync env kwargs).succeeds s = true ↔
    ∃ result v, (executeSyncJob env kwargs).Returns s result v := by
  unfold runSync
  simp only [Prog.succeeds_iff, Session.returns_serve, Prog.returns_bind, Session.returns_exec,
    Prog.returns_pure, Session.view_fresh]
  constructor
  · rintro ⟨_, _, _, ⟨result, _, ⟨v, h, rfl⟩, rfl, rfl⟩, rfl⟩
    exact ⟨result, v, h⟩
  · rintro ⟨result, v, h⟩
    exact ⟨_, _, _, ⟨result, _, ⟨v, h, rfl⟩, rfl, rfl⟩, rfl⟩

theorem after_of_job {jobId : Uuid} (h : uuidOf (executionId kwargs) = .ok jobId) :
    after env d kwargs s =
      (Session.serve (track d jobId env.textOf (runSync env kwargs)) s).2 := by
  have htrue : ¬ isTruthy (executionId kwargs) = false := by
    rcases hj : executionId kwargs with _ | _ | _ | _ | i | _ | _ | _ <;> rw [hj] at h <;>
      simp [uuidOf] at h
    simp [isTruthy]
  unfold after integrationSyncTask executeJob Prog.run
  rw [if_neg htrue, h]

theorem completed_after_iff {jobId : Uuid} (h : uuidOf (executionId kwargs) = .ok jobId) :
    Completed jobId (after env d kwargs s) ↔ HasJob jobId s ∧
      ∃ result v, (executeSyncJob env kwargs).Returns (started d jobId s) result v := by
  rw [after_of_job h, completed_iff frames_runSync, succeeds_runSync]

/-- The upserts of a sync that goes through, on the tables that it started from. -/
theorem saved_of_returns (jobId : Uuid) {result : Dict} {v : Database} :
    (executeSyncJob env kwargs).Returns (started d jobId s) result v ↔
      ∃ call x, callOf env kwargs s = .ok call ∧ call.outcome = .ok result ∧
        accountsOf env call.connection result = .ok x ∧
        (x.accounts ≠ [] → s.workspaces.has call.workspaceId = true) ∧
        ∃ T, Saved env call.workspaceId x.provider x.refresh x.accounts s.socialAccounts T ∧
          v = { started d jobId s with socialAccounts := T } := by
  have hothers := others_started (d := d) (s := s) jobId
  have hw : (started d jobId s).workspaces = s.workspaces := congrArg (fun o => o.1) hothers
  have ha : (started d jobId s).socialAccounts = s.socialAccounts :=
    congrArg (fun o => o.2.1) hothers
  simp only [returns_executeSyncJob, callOf_congr hothers, returns_persist, saveAll, returns_saveAll,
    hw, ha]
  constructor
  · rintro ⟨call, hcall, hout, x, hx, hws, T, hT, hv⟩
    exact ⟨call, x, hcall, hout, hx, hws, T, hT, hv⟩
  · rintro ⟨call, x, hcall, hout, hx, hws, T, hT, hv⟩
    exact ⟨call, hcall, hout, x, hx, hws, T, hT, hv⟩

theorem socialAccounts_after : (after env d kwargs s).socialAccounts = s.socialAccounts :=
  congrArg (fun o => o.2.1) others_after

theorem integrationConnections_after :
    (after env d kwargs s).integrationConnections = s.integrationConnections :=
  congrArg (fun o => o.2.2) others_after

/-- **A completed sync is durable exactly if it has nothing to write.** -/
theorem durable_iff (env : Env) (d : Draws) (kwargs : Dict) (s : Database) :
    Durable env d kwargs s ↔ NothingToWrite env kwargs s := by
  refine and_congr ⟨?_, ?_⟩ ⟨?_, ?_⟩
  · intro h jobId call result x hid hjob hcall hout hx hws hnew
    obtain ⟨T, hT⟩ := exists_saved.mpr hnew
    have hret := (saved_of_returns (d := d) jobId).mpr
      ⟨call, x, hcall, hout, hx, hws, T, hT, rfl⟩
    have hsub := h jobId hid ((completed_after_iff hid).mpr ⟨hjob, result, _, hret⟩) result _ hret
    rw [socialAccounts_after] at hsub
    have hsame := (subset_iff hT).mp hsub
    rw [stored_of_saved hT] at hsame
    exact (upserts_eq_iff put_put).mp hsame
  · intro h jobId hid hdone result v hret
    obtain ⟨hjob, -⟩ := (completed_after_iff hid).mp hdone
    obtain ⟨call, x, hcall, hout, hx, hws, T, hT, rfl⟩ := (saved_of_returns jobId).mp hret
    have hall := h jobId call result x hid hjob hcall hout hx hws (exists_saved.mp ⟨T, hT⟩)
    rw [socialAccounts_after]
    refine (subset_iff hT).mpr ?_
    rw [stored_of_saved hT]
    exact (upserts_eq_iff put_put).mpr hall
  · intro h call text hruns hcall hout
    obtain ⟨c, hc, hid, hst⟩ := h call text hruns hcall hout
    rw [integrationConnections_after] at hc
    rw [← s.integrationConnections.eq_of_key_eq hc (mem_of_callOf hcall) hid]
    exact hst
  · intro h call text hruns hcall hout
    refine ⟨call.connection, ?_, rfl, h call text hruns hcall hout⟩
    rw [integrationConnections_after]
    exact mem_of_callOf hcall

/-! ### A page that is lost -/

instance (jobId : Uuid) (s : Database) : Decidable (Completed jobId s) :=
  inferInstanceAs (Decidable (∃ j ∈ s.jobExecutions.rows, j.id = jobId ∧ j.status = .completed))

/-- The workspace 10 is connected to Facebook, and the sync is queued as the job 60. -/
def connected : Database :=
  { twoStudios with
    integrationConnections := ⟨[⟨50, 10, "facebook", .connected, some "EAAB", none, none⟩], by decide⟩
    jobExecutions := ⟨[⟨60, "integration.sync", "default", .queued, .high, 0, 3, .null, none, none,
      none, none, none⟩], List.pairwise_singleton _ _⟩ }

/-- Facebook answers with one page. -/
def onePage : Env where
  encrypt _ token := "gAAAA" ++ token
  decrypt _ := none
  lower := id
  strOf _ := ""
  textOf _ := ""
  connector _ _ _ := .ok [("pages", .arr [.obj [("id", .str "100"), ("name", .str "Studio"),
    ("access_token", .str "EAAC")]])]
  uuid _ := 70
  now := 0

/-- The message of the job. -/
def syncStudio : Dict :=
  [("job_execution_id", .id 60), ("workspace_id", .id 10), ("provider", .str "facebook"),
    ("sync_type", .str "full")]

/-- The job ends completed, and the page that it stored is not there. -/
theorem page_is_lost : ¬ Durable onePage (drawsFrom 80 0 "") syncStudio connected := by
  intro h
  have hdone : Completed 60 (after onePage (drawsFrom 80 0 "") syncStudio connected) := by decide
  have hlost : ∃ a ∈ ((executeSyncJob onePage syncStudio).run
      (started (drawsFrom 80 0 "") 60 connected)).2.socialAccounts.rows,
      a ∉ (after onePage (drawsFrom 80 0 "") syncStudio connected).socialAccounts.rows := by decide
  obtain ⟨a, ha, hna⟩ := hlost
  exact hna (h.1 60 rfl hdone _ _ (Prog.returns_of_fst rfl) a ha)

end MarketingSuite.Sync.Durability
