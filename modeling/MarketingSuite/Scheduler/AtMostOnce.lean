import MarketingSuite.Scheduler.System
import Mathlib.Data.List.Count

/-! # A campaign is published at most once

A task has carried out the publish of its campaign when its PUBLISHED update went through and it
goes on to record a PUBLISH_SUCCESS entry. Nothing looks at the entries, nor at the other tasks. The
campaigns are published at most once in the runs in which no task makes its update after another
task of the campaign has carried out the publish; from a step that does, some run leads to two
entries. -/

namespace MarketingSuite.Scheduler.AtMostOnce

open MarketingSuite.Lib.Programs MarketingSuite.Lib.Tables MarketingSuite.Lib.Runs
open MarketingSuite.Base.Values MarketingSuite.Base.Models MarketingSuite.Base.Schema
open MarketingSuite.Repositories.Base MarketingSuite.Repositories.Records
open MarketingSuite.Scheduler.Service MarketingSuite.Scheduler.Task MarketingSuite.Scheduler.System

/-- The entry of a publish of the campaign `c`. -/
def isSuccess (c : Uuid) (log : AuditLog) : Bool :=
  log.resourceType = "CAMPAIGN_SCHEDULE" && log.action = "PUBLISH_SUCCESS" && log.resourceId = c

/-- The number of PUBLISH_SUCCESS entries of the campaign `c`. -/
def successes (c : Uuid) (db : Database) : ℕ := db.auditLogs.countP (isSuccess c)

/-- The task has made its PUBLISHED update of the campaign `c` and records it next. -/
def recordsNext (c : Uuid) (t : Running) : Bool := t.phase = .audit && t.job.campaignId = c

/-- The number of tasks that have carried out the publish of the campaign `c`. -/
def carriedOut (c : Uuid) (s : State) : ℕ := successes c s.db + s.tasks.countP (recordsNext c)

/-- Every campaign has at most one PUBLISH_SUCCESS entry. -/
def PublishedOnce (s : State) : Prop := ∀ c, successes c s.db ≤ 1

/-- If a task's PUBLISHED update goes through and it goes on to its entry, no other task has carried
out the publish of the campaign. -/
def FirstToPublish (str : Exc → String) (s : State) : Event → Prop
  | .advance k _ fault => fault = .none → ∀ t ∈ s.tasks[k]?, ∀ w ∈ writes str fault s.db t.phase,
    w.2 = .published → carriedOut t.job.campaignId s = 0
  | _ => True

instance (str : Exc → String) (s : State) : ∀ e, Decidable (FirstToPublish str s e)
  | .advance _ _ _ => inferInstanceAs (Decidable (_ → ∀ t ∈ _, ∀ w ∈ _, _ → _))
  | .request .. | .changeStatus .. | .deleteCampaign .. => isTrue trivial

variable {str : Exc → String} {s : State} {c : Uuid} {k : ℕ} {t t' : Running}

/-! ### One step -/

theorem countP_set_task (c : Uuid) (t' : Running) (ht : s.tasks[k]? = some t) :
    (s.tasks.set k t').countP (recordsNext c) + (if recordsNext c t then 1 else 0) =
      s.tasks.countP (recordsNext c) + (if recordsNext c t' then 1 else 0) := by
  obtain ⟨hk, rfl⟩ := List.getElem?_eq_some_iff.mp ht
  have hle := List.boole_getElem_le_countP (p := recordsNext c) hk
  rw [List.countP_set hk]
  omega

theorem successes_append (c : Uuid) (db : Database) (log : AuditLog) :
    successes c { db with auditLogs := db.auditLogs ++ [log] } =
      successes c db + if isSuccess c log then 1 else 0 := by
  simp only [successes, List.countP_append, List.countP_singleton]

theorem recordsNext_of_ne {j : Job} {ph : Phase} (h : ph ≠ .audit) :
    recordsNext c ⟨j, ph⟩ = false := by
  simp [recordsNext, h]

/-- The tasks after a move of one of them that does not bring it before its entry. -/
theorem countP_set_of_ne (c : Uuid) (j : Job) {ph : Phase} (ht : s.tasks[k]? = some t)
    (h : ph ≠ .audit) :
    (s.tasks.set k ⟨j, ph⟩).countP (recordsNext c) + (if recordsNext c t then 1 else 0) =
      s.tasks.countP (recordsNext c) := by
  have hset := countP_set_task c ⟨j, ph⟩ ht
  have hph : recordsNext c ⟨j, ph⟩ = false := recordsNext_of_ne h
  simpa only [hph, Bool.false_eq_true, if_false, Nat.add_zero] using hset

/-- An accepted request records something else, and its task does not stand before its entry. -/
theorem carriedOut_of_served {d : Draws} {c' w v : Uuid} {q : Request}
    {a : CampaignSchedule × List Job}
    {db : Database} (h : Served s.db d c' w v q a db) (l : List Job) :
    carriedOut c ⟨db, s.tasks ++ l.map fun j => ⟨j, .get⟩⟩ = carriedOut c s := by
  have hlog : ∃ T, Logged s.db T db := by
    rcases h.row with ⟨r, -, -, -, -, T, -, hlog⟩ | ⟨-, -, -, -, T, -, hlog⟩
    · exact ⟨T, hlog⟩
    · exact ⟨T, hlog⟩
  obtain ⟨T, log, hact, rfl⟩ := hlog
  have hentries : (s.db.auditLogs ++ [log]).countP (isSuccess c) = successes c s.db := by
    rw [List.countP_append, List.countP_singleton, if_neg (by simp [isSuccess, hact])]
    rfl
  have hqueued : (l.map fun j => (⟨j, .get⟩ : Running)).countP (recordsNext c) = 0 := by
    refine List.countP_eq_zero.mpr fun t ht => ?_
    obtain ⟨j, -, rfl⟩ := List.mem_map.mp ht
    simp [recordsNext]
  show (s.db.auditLogs ++ [log]).countP (isSuccess c) + _ = _
  rw [hentries, List.countP_append, hqueued, Nat.add_zero, carriedOut]

/-- The move of a task leaves the number as it is, or makes it smaller, unless it is a PUBLISHED
update that goes through: that makes it larger by one. -/
theorem carriedOut_of_moves {fault : Fault} {ph : Phase} {db : Database}
    (ht : s.tasks[k]? = some t) (hm : Moves str fault s.db t.job t.phase ph db) :
    carriedOut c ⟨db, s.tasks.set k ⟨t.job, ph⟩⟩ ≤ carriedOut c s ∨
      (fault = .none ∧ (∃ i, writes str fault s.db t.phase = some (i, .published)) ∧
        t.job.campaignId = c ∧
        carriedOut c ⟨db, s.tasks.set k ⟨t.job, ph⟩⟩ ≤ carriedOut c s + 1) := by
  cases hm with
  | quiet hw haudit hrow =>
    have hset := countP_set_of_ne c t.job ht haudit
    refine Or.inl ?_
    simp only [carriedOut]
    omega
  | @wrote r st f T hw hheld hex hf hT haudit hrow =>
    have hset := countP_set_task c ⟨t.job, ph⟩ ht
    have hentries : successes c { s.db with campaignSchedules := T } = successes c s.db := rfl
    simp only [carriedOut, hentries]
    by_cases hnext : recordsNext c ⟨t.job, ph⟩ = true
    · have hau : ph = .audit ∧ t.job.campaignId = c := by
        simpa [recordsNext] using hnext
      obtain ⟨hnone, rfl⟩ := haudit hau.1
      refine Or.inr ⟨hnone, ⟨r.id, hw⟩, hau.2, ?_⟩
      rw [if_pos hnext] at hset
      omega
    · rw [if_neg hnext] at hset
      exact Or.inl (by omega)
  | @logged log hw hlog hact haudit hrow =>
    have hset := countP_set_of_ne c t.job ht haudit
    refine Or.inl ?_
    simp only [carriedOut, successes_append]
    have hle : (if isSuccess c log then 1 else 0) ≤ if recordsNext c t then 1 else 0 := by
      split_ifs with hsucc hnext
      · exact le_rfl
      · -- only a task that stands before its entry records one, and for its own campaign
        simp only [isSuccess, Bool.and_eq_true, decide_eq_true_eq] at hsucc
        rcases hact with ⟨-, hph⟩ | hfail
        · refine absurd ?_ hnext
          simp [recordsNext, hph, ← hlog.2, hsucc.2]
        · rw [hsucc.1.2] at hfail
          exact absurd hfail (by decide)
      · exact Nat.zero_le _
      · exact le_rfl
    omega

/-- **One step** makes the number no larger, unless it is a PUBLISHED update that goes through. -/
theorem carriedOut_step_cases (str : Exc → String) (s : State) (c : Uuid) (e : Event) :
    carriedOut c (step str s e) ≤ carriedOut c s ∨
      ∃ k d t i, e = .advance k d .none ∧ s.tasks[k]? = some t ∧
        writes str .none s.db t.phase = some (i, .published) ∧ t.job.campaignId = c ∧
        carriedOut c (step str s e) ≤ carriedOut c s + 1 := by
  have he := effect_step str s e
  generalize step str s e = s' at he
  cases he with
  | refused => exact Or.inl le_rfl
  | served h => exact Or.inl (carriedOut_of_served h _).le
  | campaign _ _ _ => exact Or.inl le_rfl
  | @moved k d fault t ph db ht hm =>
    rcases carriedOut_of_moves (c := c) ht hm with hle | ⟨rfl, ⟨i, hw⟩, hc, hle⟩
    · exact Or.inl hle
    · exact Or.inr ⟨k, d, t, i, rfl, ht, hw, hc, hle⟩

theorem carriedOut_step (e : Event) (hfirst : FirstToPublish str s e)
    (hs : ∀ c, carriedOut c s ≤ 1) : ∀ c, carriedOut c (step str s e) ≤ 1 := by
  intro c
  rcases carriedOut_step_cases str s c e with hle | ⟨k, d, t, i, rfl, ht, hw, hc, hle⟩
  · exact hle.trans (hs c)
  · have hzero : carriedOut c s = 0 := hc ▸ hfirst rfl t ht (i, .published) hw rfl
    omega

/-! ### Runs -/

/-- **A campaign is published at most once** in a run in which no task makes its PUBLISHED update
after another task has carried out the publish. -/
theorem always_publishedOnce (s : State) (l : List Event) (hs : ∀ c, carriedOut c s ≤ 1)
    (hl : Along (step str) (FirstToPublish str) s l) : Always (step str) PublishedOnce s l := by
  have hinv := always_of_along (I := fun s => ∀ c, carriedOut c s ≤ 1)
    (fun _ e hs hfirst => carriedOut_step e hfirst hs) hs hl
  rw [always_iff] at hinv ⊢
  exact fun pre hpre c => (Nat.le_add_right _ _).trans (hinv pre hpre c)

/-- A publish that fails and is tried again. -/
theorem always_publishedOnce_retried : Always (step fun _ => "error") PublishedOnce launching
    [publishLaunch, .advance 0 (drawsFrom 0 2 "") (.before (.raised "connection")), onward 0, onward 0,
      .request (drawsFrom 50 3 "") 30 10 1 .retry, onward 1, onward 1, onward 1] :=
  always_publishedOnce _ _ (fun _ => Nat.zero_le _) (by decide)

/-- **A campaign published twice**: two requests before the first task ends. -/
theorem published_twice : ¬ Always (step fun _ => "error") PublishedOnce launching
    [publishLaunch, .request (drawsFrom 50 1 "") 30 10 1 .publish, onward 0, onward 0, onward 0,
      onward 1, onward 1, onward 1] := by
  intro h
  have htwice := always_iff.mp h _ List.prefix_rfl 30
  revert htwice
  decide

/-! ### The condition cannot be weakened -/

theorem step_of_recordsNext (str : Exc → String) (d : Draws) (ht : s.tasks[k]? = some t)
    (hrec : recordsNext c t = true) :
    carriedOut c (step str s (.advance k d .none)) = carriedOut c s ∧
      (step str s (.advance k d .none)).tasks.countP (recordsNext c) + 1 =
        s.tasks.countP (recordsNext c) := by
  obtain ⟨j, ph⟩ := t
  have hph : ph = .audit ∧ j.campaignId = c := by simpa [recordsNext] using hrec
  obtain ⟨rfl, rfl⟩ := hph
  have hset := countP_set_of_ne j.campaignId j ht (show Phase.notify ≠ .audit from nofun)
  rw [if_pos hrec] at hset
  have hstep : ∃ log, isSuccess j.campaignId log = true ∧ step str s (.advance k d .none) =
      ⟨{ s.db with auditLogs := s.db.auditLogs ++ [log] }, s.tasks.set k ⟨j, .notify⟩⟩ := by
    refine ⟨⟨some j.workspaceId, some j.userId, "PUBLISH_SUCCESS", "CAMPAIGN_SCHEDULE", j.campaignId,
      none, none, d.now 0⟩, by simp [isSuccess], ?_⟩
    simp only [step, advance, ht]
    rfl
  obtain ⟨log, hlog, heq⟩ := hstep
  rw [heq]
  refine ⟨?_, hset⟩
  simp only [carriedOut, successes_append, hlog, if_true]
  omega

theorem exists_run_recording (str : Exc → String) (d : Draws) (c : Uuid) : ∀ (n : ℕ) (s : State),
    s.tasks.countP (recordsNext c) = n →
      ∃ l, successes c (run (step str) s l).db = carriedOut c s
  | 0, s, hn => ⟨[], by simp [carriedOut, hn]⟩
  | n + 1, s, hn => by
    obtain ⟨t, hmem, hrec⟩ := List.countP_pos_iff.mp (by omega : 0 < s.tasks.countP (recordsNext c))
    obtain ⟨k, ht⟩ := List.getElem?_of_mem hmem
    obtain ⟨hcarried, hcount⟩ := step_of_recordsNext str d ht hrec
    obtain ⟨l, hl⟩ := exists_run_recording str d c n (step str s (.advance k d .none)) (by omega)
    exact ⟨.advance k d .none :: l, by rw [run_cons, hl, hcarried]⟩

theorem carriedOut_of_published {d : Draws} {i : Uuid} (ht : s.tasks[k]? = some t)
    (hw : writes str .none s.db t.phase = some (i, .published)) :
    carriedOut t.job.campaignId (step str s (.advance k d .none)) =
      carriedOut t.job.campaignId s + 1 := by
  obtain ⟨j, ph⟩ := t
  cases ph with
  | update r =>
    have hgo : (update r.id markPublished).succeeds s.db = true := by
      by_contra hno
      have hnone : writes str .none s.db (.update r) = none := if_neg hno
      rw [hnone] at hw
      exact absurd hw (by simp)
    have hret : ∃ a T,
        (update r.id markPublished).Returns s.db a { s.db with campaignSchedules := T } := by
      rcases Prog.returns_or_raises (update r.id markPublished) s.db with ⟨a, s', h⟩ | ⟨e, s', h⟩
      · obtain ⟨-, -, -, -, -, T, -, rfl⟩ := returns_update.mp h
        exact ⟨a, T, h⟩
      · rw [Prog.succeeds, show update r.id markPublished s.db = _ from h] at hgo
        exact Bool.noConfusion hgo
    obtain ⟨a, T, hret⟩ := hret
    have hstep : step str s (.advance k d .none) =
        ⟨{ s.db with campaignSchedules := T }, s.tasks.set k ⟨j, .audit⟩⟩ := by
      have hrun : (next str d .none j (.update r)).run s.db =
          (.ok .audit, { s.db with campaignSchedules := T }) := by
        rw [Prog.run, next, call_apply, attempt, show update r.id markPublished s.db = _ from hret]
      simp only [step, advance, ht, hrun]
    have hset : (s.tasks.set k ⟨j, .audit⟩).countP (recordsNext j.campaignId) =
        s.tasks.countP (recordsNext j.campaignId) + 1 := by
      have h := countP_set_task j.campaignId ⟨j, .audit⟩ ht
      simpa [recordsNext] using h
    rw [hstep]
    show successes j.campaignId s.db + (s.tasks.set k ⟨j, .audit⟩).countP _ = _
    rw [hset, carriedOut, Nat.add_assoc]
  | exceptUpdate e r =>
    simp only [writes] at hw
    split_ifs at hw
    exact absurd (Prod.mk.inj (Option.some.inj hw)).2 (by decide)
  | _ => exact absurd hw (by simp [writes])

/-- From every step that breaks the condition some run leads to a second entry; another run may fail
to record it. -/
theorem exists_run_not_publishedOnce (e : Event) (he : ¬ FirstToPublish str s e) :
    ∃ l, ¬ PublishedOnce (run (step str) s (e :: l)) := by
  cases e with
  | advance k d fault =>
    simp only [FirstToPublish, not_forall] at he
    obtain ⟨rfl, t, ht, ⟨i, st⟩, hw, rfl, hne⟩ := he
    obtain ⟨l, hl⟩ :=
      exists_run_recording str d t.job.campaignId _ (step str s (.advance k d .none)) rfl
    refine ⟨l, fun h => ?_⟩
    have hle := h t.job.campaignId
    rw [run_cons, hl, carriedOut_of_published ht hw] at hle
    omega
  | _ => exact absurd trivial he

end MarketingSuite.Scheduler.AtMostOnce
