import MarketingSuite.Analytics.Metrics
import MarketingSuite.Analytics.Paging
import MarketingSuite.Lib.Origins
import MarketingSuite.Lib.Sessions

/-! # Analytics snapshots

`app/services/analytics/core.py`, with `dashboard.py`, `ai_usage_metrics.py` and the snapshots of
`app/repositories/analytics.py`. The overview of a workspace is its latest snapshot, if that is of
today, and a new one otherwise. So it never shows another day than today, and what it shows the
dashboard showed when the snapshot was taken, which was today. Nothing commits the session of the
endpoint: without a caller that does, every overview is taken anew. -/

namespace MarketingSuite.Analytics.Snapshots

open MarketingSuite.Lib.Programs MarketingSuite.Lib.Tables MarketingSuite.Lib.Sessions
open MarketingSuite.Lib.Runs MarketingSuite.Lib.Origins
open MarketingSuite.Base.Values MarketingSuite.Base.Models MarketingSuite.Base.Schema
open MarketingSuite.Repositories.Base
open MarketingSuite.Analytics.Metrics (WorkspaceMetrics CampaignMetrics PublishingMetrics
  workspaceMetrics campaignMetrics publishingMetrics countRows isPublication)
open MarketingSuite.Analytics.Paging (AIUsage)

/-! ### The tables -/

/-- A `date`, as a number of days. -/
abbrev Day : Type := ℤ

inductive SnapshotType
  | daily | weekly | monthly | yearly
deriving DecidableEq, Repr

/-- What `AIUsageMetricsService.get_metrics` returns. -/
structure AIUsageMetrics where
  totalGenerations : ℤ
  totalTokens : ℤ

/-- The four groups of numbers of a dashboard. -/
structure Metrics where
  campaignMetrics : CampaignMetrics
  publishingMetrics : PublishingMetrics
  aiMetrics : AIUsageMetrics
  workspaceMetrics : WorkspaceMetrics

/-- What `DashboardService.get_dashboard_overview` returns. -/
structure DashboardOverview extends Metrics where
  workspaceId : Uuid
  date : Day

/-- `AnalyticsSnapshot`. -/
structure AnalyticsSnapshot extends Metrics where
  id : Uuid
  workspaceId : Uuid
  snapshotType : SnapshotType
  snapshotDate : Day

/-- A snapshot of the workspace with this type and date. -/
def isSnapshot (w : Uuid) (ty : SnapshotType) (date : Day) (r : AnalyticsSnapshot) : Bool :=
  r.workspaceId = w && r.snapshotDate = date && r.snapshotType = ty

instance : Keyed AnalyticsSnapshot Uuid where
  key := AnalyticsSnapshot.id
  compatible r q := !isSnapshot r.workspaceId r.snapshotType r.snapshotDate q
  symm r q := by simp [isSnapshot, eq_comm]

/-- The database, with the two tables. -/
structure Warehouse where
  db : Database
  aiUsage : Table AIUsage
  analyticsSnapshots : Table AnalyticsSnapshot

/-- A program over what a session sees of the warehouse. -/
abbrev Act (α : Type) : Type := Prog Warehouse Exc α

/-- A program of the rest of the suite. -/
def onDatabase {α : Type} (p : Svc α) : Act α :=
  Prog.focus Warehouse.db (fun t db => { t with db := db }) p

/-! ### The dashboard -/

/-- `func.sum(column)` over the selected rows. -/
def total (column : AIUsage → ℤ) (rows : List AIUsage) : ℤ :=
  rows.foldr (fun u n => column u + n) 0

/-- `AIUsageMetricsService.get_metrics`; the sum of no rows is null, which counts as 0. -/
def aiUsageMetrics (workspaceId : Uuid) : Act AIUsageMetrics := Prog.gets fun t =>
  let rows := t.aiUsage.select fun u => u.workspaceId = workspaceId
  ⟨total AIUsage.generations rows, total AIUsage.totalTokens rows⟩

/-- `DashboardService.get_dashboard_overview`. -/
def getDashboardOverview (today : Day) (workspaceId : Uuid) : Act DashboardOverview := do
  let campaignMetrics ← onDatabase (campaignMetrics workspaceId)
  let publishingMetrics ← onDatabase (publishingMetrics workspaceId)
  let aiMetrics ← aiUsageMetrics workspaceId
  let workspaceMetrics ← onDatabase (workspaceMetrics workspaceId)
  pure
    { campaignMetrics := campaignMetrics
      publishingMetrics := publishingMetrics
      aiMetrics := aiMetrics
      workspaceMetrics := workspaceMetrics
      workspaceId := workspaceId
      date := today }

/-! ### The snapshots -/

/-- `AnalyticsSnapshotRepository.get_by_date_and_type`. -/
def getByDateAndType (workspaceId : Uuid) (snapshotDate : Day) (snapshotType : SnapshotType) :
    Act (Option AnalyticsSnapshot) := do
  let rows ← Prog.gets fun t : Warehouse =>
    t.analyticsSnapshots.select (isSnapshot workspaceId snapshotType snapshotDate)
  onDatabase (scalarOneOrNone rows)

/-- `AnalyticsSnapshotRepository.get_latest_snapshot`. -/
def getLatest (workspaceId : Uuid) (snapshotType : SnapshotType) :
    Act (Option AnalyticsSnapshot) := do
  let rows ← Prog.gets fun t : Warehouse => t.analyticsSnapshots.select fun r =>
    r.workspaceId = workspaceId && r.snapshotType = snapshotType
  onDatabase (scalarOneOrNone
    ((rows.insertionSort fun r q => q.snapshotDate ≤ r.snapshotDate).take 1))

/-- `BaseRepository.create`, of a snapshot. -/
def createSnapshot (r : AnalyticsSnapshot) : Act AnalyticsSnapshot := do
  let t ← Prog.gets id
  Prog.require (t.db.workspaces.has r.workspaceId = true) .integrity
  let T ← orRaise (t.analyticsSnapshots.insert r) .integrity
  Prog.modify fun t => { t with analyticsSnapshots := T }
  pure r

/-- `BaseRepository.update`, of a snapshot that was read. -/
def updateSnapshot (existing : AnalyticsSnapshot) (f : AnalyticsSnapshot → AnalyticsSnapshot) :
    Act AnalyticsSnapshot := do
  let t ← Prog.gets id
  Prog.require (t.db.workspaces.has (f existing).workspaceId = true) .integrity
  let T ← orRaise (t.analyticsSnapshots.modify existing.id f) .integrity
  Prog.modify fun t => { t with analyticsSnapshots := T }
  pure (f existing)

/-- The fields of `obj_in`. -/
def snapshotOf (id workspaceId : Uuid) (snapshotDate : Day) (snapshotType : SnapshotType)
    (dashboardData : Metrics) : AnalyticsSnapshot :=
  { toMetrics := dashboardData
    id := id
    workspaceId := workspaceId
    snapshotType := snapshotType
    snapshotDate := snapshotDate }

/-- `AnalyticsService.generate_snapshot`. -/
def generateSnapshot (d : Draws) (today : Day) (workspaceId : Uuid) (snapshotDate : Day)
    (snapshotType : SnapshotType) : Act AnalyticsSnapshot := do
  let dashboardData ← getDashboardOverview today workspaceId
  let existing ← getByDateAndType workspaceId snapshotDate snapshotType
  match existing with
  | some existing =>
    updateSnapshot existing fun r =>
      snapshotOf r.id workspaceId snapshotDate snapshotType dashboardData.toMetrics
  | none =>
    createSnapshot
      (snapshotOf (d.uuid 0) workspaceId snapshotDate snapshotType dashboardData.toMetrics)

/-- `AnalyticsService.get_latest_snapshot`; `today k` is the `k`-th call of `date.today()`. -/
def getLatestSnapshot (d : Draws) (today : ℕ → Day) (workspaceId : Uuid)
    (snapshotType : SnapshotType) : Act AnalyticsSnapshot := do
  let snapshot ← getLatest workspaceId snapshotType
  match snapshot with
  | none => generateSnapshot d (today 1) workspaceId (today 0) snapshotType
  | some snapshot =>
    if snapshot.snapshotDate ≠ today 0 then
      generateSnapshot d (today 2) workspaceId (today 1) snapshotType
    else pure snapshot

/-! ### The calls -/

/-- A request of another part of the suite, which leaves the snapshots alone. -/
abbrev Other : Type := { p : Act Unit // p.Frames Warehouse.analyticsSnapshots }

/-- What can happen to the warehouse. A caller of the analytics service commits its session, or
closes it without a commit, as the endpoint does. -/
inductive Event
  | latest (commits : Bool) (d : Draws) (today : ℕ → Day) (w : Uuid) (ty : SnapshotType)
  | generate (commits : Bool) (d : Draws) (today : Day) (w : Uuid) (date : Day) (ty : SnapshotType)
  | other (body : Other)

/-- The session of a caller. -/
def session {α : Type} (commits : Bool) (p : Act α) : Act α :=
  if commits = true then Session.transact p else Session.serve (Session.exec p)

/-- The warehouse after a call. -/
def step (t : Warehouse) : Event → Warehouse
  | .latest commits d today w ty => (session commits (getLatestSnapshot d today w ty) t).2
  | .generate commits d today w date ty =>
    (session commits (generateSnapshot d today w date ty) t).2
  | .other body => (body.val t).2

/-- The caller commits. -/
def Event.commits : Event → Bool
  | .latest commits _ _ _ _ => commits
  | .generate commits _ _ _ _ _ => commits
  | .other _ => false

/-- What the dashboard of the workspace shows. -/
def Shows (w : Uuid) (t : Warehouse) (m : Metrics) : Prop :=
  ∀ today, (getDashboardOverview today w).Returns t ⟨m, w, today⟩ t

/-- There is a snapshot with these numbers. -/
def Stored (w : Uuid) (ty : SnapshotType) (date : Day) (m : Metrics) (t : Warehouse) : Prop :=
  ∃ r ∈ t.analyticsSnapshots.rows, isSnapshot w ty date r = true ∧ r.toMetrics = m

/-- The call takes a snapshot of what the dashboard shows, and commits it. -/
inductive Takes (w : Uuid) (ty : SnapshotType) (date : Day) (m : Metrics) (t : Warehouse) :
    Event → Prop
  | latest {d : Draws} {today : ℕ → Day} {a : AnalyticsSnapshot} {t' : Warehouse}
      (h : (getLatestSnapshot d today w ty).Returns t a t') (hdate : a.snapshotDate = date)
      (hm : Shows w t m) : Takes w ty date m t (.latest true d today w ty)
  | generate {d : Draws} {today : Day} {a : AnalyticsSnapshot} {t' : Warehouse}
      (h : (generateSnapshot d today w date ty).Returns t a t') (hm : Shows w t m) :
      Takes w ty date m t (.generate true d today w date ty)

/-- The answer to a request after the run is of the day of the request. It shows what the dashboard
shows now, or what it showed when a snapshot of this very day was taken and committed, which is
there since then. Where a snapshot of this day is the latest, it is the answer; and where no caller
ever committed, the overview is the dashboard. -/
structure OfToday (t₀ : Warehouse) (l : List Event) (today : ℕ → Day) (w : Uuid)
    (ty : SnapshotType) (a : AnalyticsSnapshot) : Prop where
  day : ∃ k, isSnapshot w ty (today k) a = true
  taken : Shows w (run step t₀ l) a.toMetrics ∨ Since step (Takes w ty (today 0) a.toMetrics)
    (fun t _ => Stored w ty (today 0) a.toMetrics t) t₀ l
  latest : ∀ m, Stored w ty (today 0) m (run step t₀ l) →
    (∀ date m', Stored w ty date m' (run step t₀ l) → date ≤ today 0) → a.toMetrics = m
  live : (∀ e ∈ l, e.commits = false) → Shows w (run step t₀ l) a.toMetrics

variable {t t' : Warehouse} {w : Uuid} {ty : SnapshotType} {date : Day} {m : Metrics} {d : Draws}
  {a r : AnalyticsSnapshot} {o : Option AnalyticsSnapshot} {e : Event}

/-! ### What the dashboard shows -/

/-- The numbers of a workspace. -/
def metricsOf (w : Uuid) (t : Warehouse) : Metrics where
  campaignMetrics :=
    let total := t.db.campaigns.select fun c => c.workspaceId = w
    let active := t.db.campaigns.select fun c => c.workspaceId = w && c.status = .active
    let completed := t.db.campaigns.select fun c => c.workspaceId = w && c.status = .completed
    ⟨total.length, active.length, completed.length⟩
  publishingMetrics :=
    let posts (status : PublishStatus) := t.db.publishHistory.select (isPublication w status)
    ⟨(posts .published).length, (posts .failed).length, (posts .pending).length⟩
  aiMetrics :=
    let rows := t.aiUsage.select fun u => u.workspaceId = w
    ⟨total AIUsage.generations rows, total AIUsage.totalTokens rows⟩
  workspaceMetrics :=
    let accounts := t.db.socialAccounts.select fun a => a.workspaceId = w
    let members := t.db.workspaceMembers.select fun m => m.workspaceId = w
    ⟨accounts.length, members.length⟩

theorem getDashboardOverview_returns (today : Day) (w : Uuid) (t : Warehouse) :
    (getDashboardOverview today w).Returns t ⟨metricsOf w t, w, today⟩ t := rfl

theorem shows_iff : Shows w t m ↔ m = metricsOf w t := by
  constructor
  · intro h
    obtain ⟨heq, -⟩ := Prog.returns_unique (h 0) (getDashboardOverview_returns 0 w t)
    exact (congrArg DashboardOverview.toMetrics heq).symm
  · rintro rfl today
    exact getDashboardOverview_returns today w t

/-! ### The repository -/

theorem isSnapshot_iff : isSnapshot w ty date r = true ↔
    r.workspaceId = w ∧ r.snapshotDate = date ∧ r.snapshotType = ty := by
  simp [isSnapshot, and_assoc]

theorem isSnapshot_unique (hr : r ∈ t.analyticsSnapshots.rows) (ha : a ∈ t.analyticsSnapshots.rows)
    (hsr : isSnapshot w ty date r = true) (hsa : isSnapshot w ty date a = true) : r = a := by
  refine t.analyticsSnapshots.eq_of_not_compatible hr ha ?_
  obtain ⟨hw, hdate, hty⟩ := isSnapshot_iff.mp hsr
  show (!isSnapshot r.workspaceId r.snapshotType r.snapshotDate a) = false
  rw [hw, hdate, hty, hsa]
  rfl

theorem returns_onDatabase_scalar {l : List AnalyticsSnapshot} :
    (onDatabase (scalarOneOrNone l)).Returns t o t' ↔ l = o.toList ∧ t' = t := by
  unfold onDatabase
  rw [Prog.returns_focus]
  constructor
  · rintro ⟨s, h, rfl⟩
    obtain ⟨hl, rfl⟩ := returns_scalarOneOrNone.mp h
    exact ⟨hl, rfl⟩
  · rintro ⟨hl, rfl⟩
    exact ⟨t'.db, returns_scalarOneOrNone.mpr ⟨hl, rfl⟩, rfl⟩

theorem select_isSnapshot (hr : r ∈ t.analyticsSnapshots.rows)
    (hs : isSnapshot w ty date r = true) :
    t.analyticsSnapshots.select (isSnapshot w ty date) = [r] :=
  t.analyticsSnapshots.select_eq_singleton hr hs fun _ hq hsq => isSnapshot_unique hq hr hsq hs

/-- **`get_by_date_and_type`** finds the snapshot, if there is one. -/
theorem exists_getByDateAndType (w : Uuid) (date : Day) (ty : SnapshotType) (t : Warehouse) :
    ∃ o, (getByDateAndType w date ty).Returns t o t ∧
      ∀ r, o = some r ↔ r ∈ t.analyticsSnapshots.rows ∧ isSnapshot w ty date r = true := by
  have hread : ∀ o : Option AnalyticsSnapshot,
      t.analyticsSnapshots.select (isSnapshot w ty date) = o.toList →
        (getByDateAndType w date ty).Returns t o t := fun o h =>
    Prog.returns_bind.mpr ⟨_, t, Prog.returns_gets.mpr ⟨rfl, rfl⟩,
      returns_onDatabase_scalar.mpr ⟨h, rfl⟩⟩
  by_cases hsome : ∃ r ∈ t.analyticsSnapshots.rows, isSnapshot w ty date r = true
  · obtain ⟨r, hr, hs⟩ := hsome
    refine ⟨some r, hread _ (select_isSnapshot hr hs), fun q => ?_⟩
    rw [Option.some.injEq]
    constructor
    · rintro rfl
      exact ⟨hr, hs⟩
    · rintro ⟨hq, hsq⟩
      exact isSnapshot_unique hr hq hs hsq
  · have hnone : t.analyticsSnapshots.select (isSnapshot w ty date) = [] := by
      refine List.eq_nil_iff_forall_not_mem.mpr fun r hr => hsome ?_
      exact ⟨r, (Table.mem_select.mp hr).1, (Table.mem_select.mp hr).2⟩
    refine ⟨none, hread _ hnone, fun q => ?_⟩
    constructor
    · intro h
      exact absurd h (by simp)
    · rintro ⟨hq, hsq⟩
      exact absurd ⟨q, hq, hsq⟩ hsome

/-- **`get_latest_snapshot` of the repository** finds a snapshot of the type, and no later one is
there. -/
theorem exists_getLatest (w : Uuid) (ty : SnapshotType) (t : Warehouse) :
    ∃ o, (getLatest w ty).Returns t o t ∧
      (∀ r, o = some r → r ∈ t.analyticsSnapshots.rows ∧
        isSnapshot w ty r.snapshotDate r = true) ∧
      ∀ date, ∀ q ∈ t.analyticsSnapshots.rows, isSnapshot w ty date q = true →
        ∃ r, o = some r ∧ date ≤ r.snapshotDate := by
  let rows := t.analyticsSnapshots.select fun r => r.workspaceId = w && r.snapshotType = ty
  let sorted := rows.insertionSort fun r q => q.snapshotDate ≤ r.snapshotDate
  have htake : sorted.take 1 = sorted.head?.toList := by
    rcases sorted with _ | ⟨r, l⟩ <;> rfl
  have hpairwise : sorted.Pairwise fun r q => q.snapshotDate ≤ r.snapshotDate := by
    have htotal : Std.Total fun r q : AnalyticsSnapshot => q.snapshotDate ≤ r.snapshotDate :=
      ⟨fun r q => le_total q.snapshotDate r.snapshotDate⟩
    have htrans : IsTrans AnalyticsSnapshot fun r q => q.snapshotDate ≤ r.snapshotDate :=
      ⟨fun _ _ _ hab hbc => le_trans hbc hab⟩
    exact List.pairwise_insertionSort _ rows
  refine ⟨sorted.head?, Prog.returns_bind.mpr ⟨_, t, Prog.returns_gets.mpr ⟨rfl, rfl⟩,
    returns_onDatabase_scalar.mpr ⟨htake, rfl⟩⟩, fun r hr => ?_, fun date q hq hs => ?_⟩
  · have hmem : r ∈ rows := (List.mem_insertionSort _).mp (List.mem_of_head? hr)
    obtain ⟨hin, hp⟩ := Table.mem_select.mp hmem
    simp only [Bool.and_eq_true, decide_eq_true_eq] at hp
    exact ⟨hin, isSnapshot_iff.mpr ⟨hp.1, rfl, hp.2⟩⟩
  · obtain ⟨hw, hdate, hty⟩ := isSnapshot_iff.mp hs
    have hmem : q ∈ sorted :=
      (List.mem_insertionSort _).mpr (Table.mem_select.mpr ⟨hq, by simp [hw, hty]⟩)
    rcases hsorted : sorted with _ | ⟨r, l⟩
    · rw [hsorted] at hmem
      exact absurd hmem List.not_mem_nil
    · refine ⟨r, rfl, ?_⟩
      rw [hsorted] at hmem hpairwise
      rw [← hdate]
      rcases List.mem_cons.mp hmem with rfl | hlater
      · exact le_rfl
      · exact (List.pairwise_cons.mp hpairwise).1 q hlater

theorem returns_createSnapshot : (createSnapshot r).Returns t a t' ↔
    a = r ∧ t.db.workspaces.has r.workspaceId = true ∧
      ∃ T, t.analyticsSnapshots.insert r = some T ∧ t' = { t with analyticsSnapshots := T } := by
  unfold createSnapshot
  constructor
  · intro h
    rw [Prog.returns_bind] at h
    obtain ⟨_, _, hread, h⟩ := h
    obtain ⟨rfl, rfl⟩ := Prog.returns_gets.mp hread
    rw [Prog.returns_bind] at h
    obtain ⟨_, _, hreq, h⟩ := h
    obtain ⟨hw, rfl⟩ := Prog.returns_require.mp hreq
    rw [Prog.returns_bind] at h
    obtain ⟨T, _, hinsert, h⟩ := h
    obtain ⟨hT, rfl⟩ := returns_orRaise.mp hinsert
    obtain ⟨_, hmodify, rfl⟩ := Prog.returns_bind_pure.mp h
    exact ⟨rfl, hw, T, hT, Prog.returns_modify.mp hmodify⟩
  · rintro ⟨rfl, hw, T, hT, rfl⟩
    refine Prog.returns_bind.mpr ⟨t, t, Prog.returns_gets.mpr ⟨rfl, rfl⟩, ?_⟩
    refine Prog.returns_bind.mpr ⟨(), t, Prog.returns_require.mpr ⟨hw, rfl⟩, ?_⟩
    refine Prog.returns_bind.mpr ⟨T, t, returns_orRaise.mpr ⟨hT, rfl⟩, ?_⟩
    exact Prog.returns_bind_pure.mpr ⟨(), Prog.returns_modify.mpr rfl, rfl⟩

theorem returns_updateSnapshot {f : AnalyticsSnapshot → AnalyticsSnapshot} :
    (updateSnapshot r f).Returns t a t' ↔
    a = f r ∧ t.db.workspaces.has (f r).workspaceId = true ∧
      ∃ T, t.analyticsSnapshots.modify r.id f = some T ∧
        t' = { t with analyticsSnapshots := T } := by
  unfold updateSnapshot
  constructor
  · intro h
    rw [Prog.returns_bind] at h
    obtain ⟨_, _, hread, h⟩ := h
    obtain ⟨rfl, rfl⟩ := Prog.returns_gets.mp hread
    rw [Prog.returns_bind] at h
    obtain ⟨_, _, hreq, h⟩ := h
    obtain ⟨hw, rfl⟩ := Prog.returns_require.mp hreq
    rw [Prog.returns_bind] at h
    obtain ⟨T, _, hchange, h⟩ := h
    obtain ⟨hT, rfl⟩ := returns_orRaise.mp hchange
    obtain ⟨_, hmodify, rfl⟩ := Prog.returns_bind_pure.mp h
    exact ⟨rfl, hw, T, hT, Prog.returns_modify.mp hmodify⟩
  · rintro ⟨rfl, hw, T, hT, rfl⟩
    refine Prog.returns_bind.mpr ⟨t, t, Prog.returns_gets.mpr ⟨rfl, rfl⟩, ?_⟩
    refine Prog.returns_bind.mpr ⟨(), t, Prog.returns_require.mpr ⟨hw, rfl⟩, ?_⟩
    refine Prog.returns_bind.mpr ⟨T, t, returns_orRaise.mpr ⟨hT, rfl⟩, ?_⟩
    exact Prog.returns_bind_pure.mpr ⟨(), Prog.returns_modify.mpr rfl, rfl⟩

/-! ### The service -/

theorem isSnapshot_snapshotOf (i : Uuid) :
    isSnapshot w ty date (snapshotOf i w date ty m) = true := by
  simp [isSnapshot, snapshotOf]

/-- **A snapshot that was taken now** shows what the dashboard shows; all others were there. -/
structure TakenNow (w : Uuid) (ty : SnapshotType) (date : Day) (t : Warehouse)
    (a : AnalyticsSnapshot) (t' : Warehouse) : Prop where
  isSnapshot : isSnapshot w ty date a = true
  metrics : a.toMetrics = metricsOf w t
  rows : ∀ r ∈ t'.analyticsSnapshots.rows, r ∈ t.analyticsSnapshots.rows ∨ r = a

theorem generateSnapshot_spec {today : Day}
    (h : (generateSnapshot d today w date ty).Returns t a t') : TakenNow w ty date t a t' := by
  unfold generateSnapshot at h
  rw [Prog.returns_bind] at h
  obtain ⟨overview, t₁, hoverview, h⟩ := h
  obtain ⟨rfl, rfl⟩ := Prog.returns_unique (getDashboardOverview_returns today w t) hoverview
  rw [Prog.returns_bind] at h
  obtain ⟨found, t₂, hfound, h⟩ := h
  obtain ⟨found', hfound', hspec⟩ := exists_getByDateAndType w date ty t₁
  obtain ⟨rfl, rfl⟩ := Prog.returns_unique hfound' hfound
  rcases found with _ | existing
  · obtain ⟨rfl, -, T, hT, rfl⟩ := returns_createSnapshot.mp h
    exact ⟨isSnapshot_snapshotOf _, rfl, fun r hr => (Table.mem_insert hT).mp hr⟩
  · obtain ⟨rfl, -, T, hT, rfl⟩ := returns_updateSnapshot.mp h
    refine ⟨isSnapshot_snapshotOf _, rfl, fun r hr => ?_⟩
    rcases (Table.mem_modify hT).mp hr with ⟨hold, -⟩ | ⟨q, hq, hid, rfl⟩
    · exact Or.inl hold
    · obtain rfl := t₂.analyticsSnapshots.eq_of_key_eq hq ((hspec existing).mp rfl).1 hid
      exact Or.inr rfl

/-- A snapshot can be taken of a workspace that is there, with a fresh id. -/
theorem exists_generateSnapshot (today : Day) (date : Day) (ty : SnapshotType)
    (hw : t.db.workspaces.has w = true)
    (hfresh : ∀ r ∈ t.analyticsSnapshots.rows, r.id ≠ d.uuid 0) :
    ∃ a t', (generateSnapshot d today w date ty).Returns t a t' := by
  obtain ⟨found, hfound, hspec⟩ := exists_getByDateAndType w date ty t
  rcases found with _ | existing
  · have happart : ∀ r ∈ t.analyticsSnapshots.rows,
        Apart r (snapshotOf (d.uuid 0) w date ty (metricsOf w t)) := by
      refine fun r hr => ⟨hfresh r hr, ?_⟩
      rw [Keyed.symm]
      show (!isSnapshot w ty date r) = true
      by_contra hyes
      have hsnapshot : isSnapshot w ty date r = true := by simpa using hyes
      exact absurd ((hspec r).mpr ⟨hr, hsnapshot⟩) (by simp)
    obtain ⟨T, hT⟩ := Table.exists_insert happart
    exact ⟨_, _, Prog.returns_bind.mpr ⟨_, t, getDashboardOverview_returns today w t,
      Prog.returns_bind.mpr ⟨none, t, hfound, returns_createSnapshot.mpr ⟨rfl, hw, T, hT, rfl⟩⟩⟩⟩
  · obtain ⟨hmem, hsnapshot⟩ := (hspec existing).mp rfl
    obtain ⟨hew, hedate, hety⟩ := isSnapshot_iff.mp hsnapshot
    have hkey : ∀ r : AnalyticsSnapshot,
        Keyed.key (snapshotOf r.id w date ty (metricsOf w t)) = Keyed.key r := fun _ => rfl
    obtain ⟨T, hT⟩ : ∃ T, t.analyticsSnapshots.modify existing.id
        (fun r => snapshotOf r.id w date ty (metricsOf w t)) = some T := by
      refine (Table.exists_modify_iff hmem rfl hkey).mpr fun q hq hne => ?_
      have happart := (t.analyticsSnapshots.apart_of_mem hmem hq hne.symm).2
      rw [← hew, ← hedate, ← hety]
      exact happart
    exact ⟨_, _, Prog.returns_bind.mpr ⟨_, t, getDashboardOverview_returns today w t,
      Prog.returns_bind.mpr ⟨some existing, t, hfound,
        returns_updateSnapshot.mpr ⟨rfl, hw, T, hT, rfl⟩⟩⟩⟩

/-- **`get_latest_snapshot`** gives a snapshot of today that is there, or takes one. -/
theorem getLatestSnapshot_spec {today : ℕ → Day}
    (h : (getLatestSnapshot d today w ty).Returns t a t') :
    (∃ k, TakenNow w ty (today k) t a t') ∨
      a ∈ t.analyticsSnapshots.rows ∧ isSnapshot w ty (today 0) a = true ∧ t' = t := by
  unfold getLatestSnapshot at h
  rw [Prog.returns_bind] at h
  obtain ⟨found, t₁, hfound, h⟩ := h
  obtain ⟨found', hfound', hspec, -⟩ := exists_getLatest w ty t
  obtain ⟨rfl, rfl⟩ := Prog.returns_unique hfound' hfound
  rcases found with _ | r
  · exact Or.inl ⟨0, generateSnapshot_spec h⟩
  · dsimp only at h
    split_ifs at h with hdate
    · exact Or.inl ⟨1, generateSnapshot_spec h⟩
    · rw [not_not] at hdate
      obtain ⟨rfl, rfl⟩ := Prog.returns_pure.mp h
      obtain ⟨hmem, hsnapshot⟩ := hspec a rfl
      rw [hdate] at hsnapshot
      exact Or.inr ⟨hmem, hsnapshot, rfl⟩

theorem exists_getLatestSnapshot (today : ℕ → Day) (ty : SnapshotType)
    (hw : t.db.workspaces.has w = true)
    (hfresh : ∀ r ∈ t.analyticsSnapshots.rows, r.id ≠ d.uuid 0) :
    ∃ a t', (getLatestSnapshot d today w ty).Returns t a t' := by
  obtain ⟨found, hfound, -⟩ := exists_getLatest w ty t
  rcases found with _ | r
  · obtain ⟨a, t', h⟩ := exists_generateSnapshot (today 1) (today 0) ty hw hfresh
    exact ⟨a, t', Prog.returns_bind.mpr ⟨none, t, hfound, h⟩⟩
  · by_cases hdate : r.snapshotDate ≠ today 0
    · obtain ⟨a, t', h⟩ := exists_generateSnapshot (today 2) (today 1) ty hw hfresh
      refine ⟨a, t', Prog.returns_bind.mpr ⟨some r, t, hfound, ?_⟩⟩
      dsimp only
      rw [if_pos hdate]
      exact h
    · refine ⟨r, t, Prog.returns_bind.mpr ⟨some r, t, hfound, ?_⟩⟩
      dsimp only
      rw [if_neg hdate]
      exact Prog.returns_pure.mpr ⟨rfl, rfl⟩

/-- A snapshot of today, with none of a later day, is what the service gives. -/
theorem getLatestSnapshot_of_stored {today : ℕ → Day}
    (h : (getLatestSnapshot d today w ty).Returns t a t') (hstored : Stored w ty (today 0) m t)
    (hlast : ∀ date m', Stored w ty date m' t → date ≤ today 0) : a.toMetrics = m := by
  obtain ⟨q, hq, hsq, rfl⟩ := hstored
  unfold getLatestSnapshot at h
  rw [Prog.returns_bind] at h
  obtain ⟨found, t₁, hfound, h⟩ := h
  obtain ⟨found', hfound', hspec, hlatest⟩ := exists_getLatest w ty t
  obtain ⟨rfl, rfl⟩ := Prog.returns_unique hfound' hfound
  obtain ⟨r, rfl, hle⟩ := hlatest (today 0) q hq hsq
  obtain ⟨hr, hsr⟩ := hspec r rfl
  have hdate : r.snapshotDate = today 0 :=
    le_antisymm (hlast r.snapshotDate r.toMetrics ⟨r, hr, hsr, rfl⟩) hle
  dsimp only at h
  rw [if_neg (not_not.mpr hdate)] at h
  obtain ⟨rfl, -⟩ := Prog.returns_pure.mp h
  rw [hdate] at hsr
  rw [isSnapshot_unique hr hq hsr hsq]

/-! ### Over a run -/

theorem snd_session {α : Type} (commits : Bool) (p : Act α) (t : Warehouse) :
    (session commits p t).2 = if commits = true then p.settle t else t := by
  unfold session
  split_ifs
  · exact Session.transact_snd p t
  · exact Session.serve_of_uncommitted (Session.uncommitted_exec p) t

/-- What a session leaves was there, unless it commits what its program returned with. -/
theorem stored_session {commits : Bool} {p : Act AnalyticsSnapshot}
    (h : Stored w ty date m (session commits p t).2) :
    Stored w ty date m t ∨ ∃ a t', commits = true ∧ p.Returns t a t' ∧ Stored w ty date m t' := by
  rw [snd_session] at h
  split_ifs at h with hcommits
  · rcases p.settle_cases t with ⟨a, hret⟩ | ⟨hsame, -⟩
    · exact Or.inr ⟨a, _, hcommits, hret, h⟩
    · rw [hsame] at h
      exact Or.inl h
  · exact Or.inl h

/-- Of what is there after a snapshot was taken, only the snapshot is new. -/
theorem stored_takenNow {w' : Uuid} {ty' : SnapshotType} {date' : Day}
    (htaken : TakenNow w' ty' date' t a t') (h : Stored w ty date m t') :
    Stored w ty date m t ∨ w' = w ∧ ty' = ty ∧ date' = date ∧ m = metricsOf w t := by
  obtain ⟨r, hr, hs, rfl⟩ := h
  rcases htaken.rows r hr with hold | rfl
  · exact Or.inl ⟨r, hold, hs, rfl⟩
  · obtain ⟨rfl, rfl, rfl⟩ := isSnapshot_iff.mp hs
    obtain ⟨rfl, rfl, rfl⟩ := isSnapshot_iff.mp htaken.isSnapshot
    exact Or.inr ⟨rfl, rfl, rfl, htaken.metrics⟩

/-- **A snapshot that is there** was taken and committed by the step, or was there before. -/
theorem stored_step (h : Stored w ty date m (step t e)) :
    Takes w ty date m t e ∨ Stored w ty date m t := by
  cases e with
  | latest commits d today w' ty' =>
    rcases stored_session h with hold | ⟨a, t', rfl, hret, hstored⟩
    · exact Or.inr hold
    rcases getLatestSnapshot_spec hret with ⟨k, htaken⟩ | ⟨-, -, rfl⟩
    · rcases stored_takenNow htaken hstored with hold | ⟨rfl, rfl, rfl, hm⟩
      · exact Or.inr hold
      · exact Or.inl (.latest hret (isSnapshot_iff.mp htaken.isSnapshot).2.1 (shows_iff.mpr hm))
    · exact Or.inr hstored
  | generate commits d today w' date' ty' =>
    rcases stored_session h with hold | ⟨a, t', rfl, hret, hstored⟩
    · exact Or.inr hold
    rcases stored_takenNow (generateSnapshot_spec hret) hstored with hold | ⟨rfl, rfl, rfl, hm⟩
    · exact Or.inr hold
    · exact Or.inl (.generate hret (shows_iff.mpr hm))
  | other body =>
    have hsame : (step t (.other body)).analyticsSnapshots = t.analyticsSnapshots :=
      body.property t
    obtain ⟨r, hr, hs⟩ := h
    exact Or.inr ⟨r, hsame ▸ hr, hs⟩

/-- **The overview is of today.** After any run that began without snapshots, the overview of a
workspace can be read, and is of the day of the request. -/
theorem overview_is_of_today {t₀ : Warehouse} (h₀ : t₀.analyticsSnapshots.rows = [])
    (l : List Event) (d : Draws) (today : ℕ → Day) (w : Uuid) (ty : SnapshotType)
    (hw : (run step t₀ l).db.workspaces.has w = true)
    (hfresh : ∀ r ∈ (run step t₀ l).analyticsSnapshots.rows, r.id ≠ d.uuid 0) :
    ∃ a t', (getLatestSnapshot d today w ty).Returns (run step t₀ l) a t' ∧
      OfToday t₀ l today w ty a := by
  obtain ⟨a, t', h⟩ := exists_getLatestSnapshot today ty hw hfresh
  have hempty : ∀ date m, ¬ Stored w ty date m t₀ := by
    rintro date m ⟨r, hr, -⟩
    rw [h₀] at hr
    exact absurd hr List.not_mem_nil
  have hsince : ∀ date m, Stored w ty date m (run step t₀ l) → Since step (Takes w ty date m)
      (fun t _ => Stored w ty date m t) t₀ l := by
    intro date m hstored
    have hrule := since_of_holds (H := Stored w ty date m) (I := fun _ => True)
      (Q := fun t _ => Stored w ty date m t) (fun _ _ _ => trivial)
      (fun t e _ hnext => (stored_step hnext).imp_right fun hold => ⟨hold, hold⟩) trivial hstored
    exact hrule.resolve_right fun hold => hempty date m hold.1
  refine ⟨a, t', h, ?_, ?_, fun m hstored hlast => getLatestSnapshot_of_stored h hstored hlast, ?_⟩
  · rcases getLatestSnapshot_spec h with ⟨k, htaken⟩ | ⟨-, hsnapshot, -⟩
    · exact ⟨k, htaken.isSnapshot⟩
    · exact ⟨0, hsnapshot⟩
  · rcases getLatestSnapshot_spec h with ⟨k, htaken⟩ | ⟨hmem, hsnapshot, -⟩
    · exact Or.inl (shows_iff.mpr htaken.metrics)
    · exact Or.inr (hsince _ _ ⟨a, hmem, hsnapshot, rfl⟩)
  · intro hnone
    rcases getLatestSnapshot_spec h with ⟨k, htaken⟩ | ⟨hmem, hsnapshot, -⟩
    · exact shows_iff.mpr htaken.metrics
    · obtain ⟨pre, e, post, rfl, htakes, -⟩ := hsince _ _ ⟨a, hmem, hsnapshot, rfl⟩
      have hquiet := hnone e (by simp)
      cases htakes <;> exact absurd hquiet (by simp [Event.commits])

/-! ### Two readers -/

/-- Two workspaces, and no snapshots. -/
def unread : Warehouse := ⟨twoStudios, .empty, .empty⟩

/-- One caller commits the overview of the day 5, and the endpoint reads it. -/
def readings : List Event :=
  [.latest true (drawsFrom 80 0 "") (fun _ => 5) 10 .daily,
    .latest false (drawsFrom 81 0 "") (fun _ => 5) 10 .daily]

theorem overview_is_of_today_readings : ∃ a t',
    (getLatestSnapshot (drawsFrom 82 0 "") (fun _ => 6) 10 .daily).Returns
      (run step unread readings) a t' ∧ OfToday unread readings (fun _ => 6) 10 .daily a :=
  overview_is_of_today rfl readings _ _ _ _ (by decide) (by decide)

end MarketingSuite.Analytics.Snapshots
