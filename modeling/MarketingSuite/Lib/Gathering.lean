import MarketingSuite.Lib.Runs
import Mathlib.Data.List.Nodup
import Mathlib.Order.Lattice

/-! # Gathering concurrent tasks

Tasks are started together and finish in any order, each with or without a failure. What gathers
them has a result as soon as one of them fails, or when the last one is done; a failure does not
stop the others. The rules say that a task starts once, that the gathering waits for all tasks when
none fails, and that it comes to an end when each task does. -/

namespace MarketingSuite.Lib.Gathering

open MarketingSuite.Lib.Runs

/-- Where a task stands. -/
inductive Phase
  | waiting | running | done
deriving DecidableEq, Repr

/-- Tasks that are gathered: how many, where each stands, which have started and in what order, and
the result. -/
structure Gather (ε : Type) where
  size : ℕ
  phase : ℕ → Phase
  started : List ℕ
  result : Option (Except ε Unit)

/-- A step of a task: it starts, or it finishes, perhaps with a failure. -/
inductive Step (ε : Type)
  | start (k : ℕ)
  | finish (k : ℕ) (failure : Option ε)

variable {ε : Type}

/-- Tasks of which none has started. -/
def gather (ε : Type) (n : ℕ) : Gather ε where
  size := n
  phase _ := .waiting
  started := []
  result := if n = 0 then some (.ok ()) else none

/-- Every task is done. -/
def Gather.AllDone (g : Gather ε) : Prop := ∀ k < g.size, g.phase k = .done

instance (g : Gather ε) : Decidable g.AllDone := by unfold Gather.AllDone; infer_instance

/-- A task gets to a phase. -/
def Gather.move (g : Gather ε) (k : ℕ) (p : Phase) : Gather ε :=
  { g with phase := fun j => if j = k then p else g.phase j }

/-- A task starts. -/
def Gather.begin (g : Gather ε) (k : ℕ) : Gather ε :=
  { g.move k .running with started := g.started ++ [k] }

/-- What is known after a task has finished. -/
def Gather.settle (g : Gather ε) (failure : Option ε) : Gather ε :=
  match g.result, failure with
  | some _, _ => g
  | none, some e => { g with result := some (.error e) }
  | none, none => if g.AllDone then { g with result := some (.ok ()) } else g

/-- A step; one that the task cannot take does nothing. -/
def step (g : Gather ε) : Step ε → Gather ε
  | .start k =>
    if k < g.size ∧ g.phase k = .waiting then g.begin k else g
  | .finish k failure =>
    if k < g.size ∧ g.phase k = .running then (g.move k .done).settle failure else g

/-- No task fails. -/
def Step.Succeeds : Step ε → Prop
  | .start _ => True
  | .finish _ failure => failure = none

variable {g : Gather ε} {k : ℕ}

/-! ### What a step leaves as it is -/

@[simp] theorem settle_size (failure : Option ε) : (g.settle failure).size = g.size := by
  unfold Gather.settle
  split
  · rfl
  · rfl
  · split_ifs <;> rfl

@[simp] theorem settle_phase (failure : Option ε) : (g.settle failure).phase = g.phase := by
  unfold Gather.settle
  split
  · rfl
  · rfl
  · split_ifs <;> rfl

@[simp] theorem settle_started (failure : Option ε) :
    (g.settle failure).started = g.started := by
  unfold Gather.settle
  split
  · rfl
  · rfl
  · split_ifs <;> rfl

@[simp] theorem step_size (i : Step ε) : (step g i).size = g.size := by
  unfold step
  split
  · split_ifs <;> rfl
  · split_ifs
    · exact settle_size _
    · rfl

@[simp] theorem run_size (l : List (Step ε)) : (run step g l).size = g.size :=
  rel_run (R := fun g g' : Gather ε => g'.size = g.size) (fun _ => rfl)
    (fun h h' => h'.trans h) (fun _ i => step_size i) g l

/-! ### Each task starts once -/

/-- The tasks that have started are those that no longer wait, each once. -/
structure Tracked (g : Gather ε) : Prop where
  nodup : g.started.Nodup
  mem : ∀ k, k ∈ g.started ↔ k < g.size ∧ g.phase k ≠ .waiting

theorem tracked_gather (n : ℕ) : Tracked (gather ε n) where
  nodup := List.nodup_nil
  mem k := by simp [gather]

theorem tracked_step (i : Step ε) (h : Tracked g) : Tracked (step g i) := by
  unfold step
  cases i with
  | start k =>
    dsimp only
    split_ifs with hk
    · have hnew : k ∉ g.started := fun hmem => ((h.mem k).mp hmem).2 hk.2
      refine ⟨?_, fun j => ?_⟩
      · simpa [Gather.begin, List.nodup_append] using
          ⟨h.nodup, fun a ha => ne_of_mem_of_not_mem ha hnew⟩
      · simp only [Gather.begin, List.mem_append, List.mem_singleton, h.mem, Gather.move]
        by_cases hj : j = k
        · simp [hj, hk.1]
        · simp [hj]
    · exact h
  | finish k failure =>
    dsimp only
    split_ifs with hk
    · refine ⟨by simpa [Gather.move] using h.nodup, fun j => ?_⟩
      simp only [settle_started, settle_size, settle_phase, Gather.move, h.mem]
      by_cases hj : j = k
      · simp [hj, hk.2]
      · simp [hj]
    · exact h

theorem tracked_run (n : ℕ) (l : List (Step ε)) : Tracked (run step (gather ε n) l) :=
  inv_run (fun _ i => tracked_step i) l (tracked_gather n)

/-! ### The result -/

/-- There is a result exactly when every task is done, and it is no failure. -/
structure Settled (g : Gather ε) : Prop where
  all : g.AllDone → g.result = some (.ok ())
  rest : ¬ g.AllDone → g.result = none

theorem not_allDone (hk : k < g.size) (hphase : g.phase k ≠ .done) : ¬ g.AllDone :=
  fun hall => hphase (hall k hk)

theorem settled_gather (n : ℕ) : Settled (gather ε n) where
  all hall := by
    have hn : n = 0 := by
      by_contra hn
      have hzero := hall 0 (Nat.pos_of_ne_zero hn)
      simp [gather] at hzero
    simp [gather, hn]
  rest hall := by
    have hn : n ≠ 0 := by
      rintro rfl
      exact hall fun k hk => absurd hk (Nat.not_lt_zero k)
    simp [gather, hn]

theorem settled_settle (h : g.result = none) : Settled (g.settle none) := by
  unfold Gather.settle
  rw [h]
  dsimp only
  split_ifs with hall
  · exact ⟨fun _ => rfl, fun hno => absurd hall hno⟩
  · exact ⟨fun hyes => absurd hyes hall, fun _ => h⟩

theorem settled_step {i : Step ε} (hi : i.Succeeds) (h : Settled g) : Settled (step g i) := by
  unfold step
  cases i with
  | start k =>
    dsimp only
    split_ifs with hk
    · have hbefore : ¬ g.AllDone := not_allDone hk.1 (by simp [hk.2])
      have hafter : ¬ (g.begin k).AllDone :=
        not_allDone (k := k) hk.1 (by simp [Gather.begin, Gather.move])
      exact ⟨fun hall => absurd hall hafter, fun _ => h.rest hbefore⟩
    · exact h
  | finish k failure =>
    obtain rfl : failure = none := hi
    dsimp only
    split_ifs with hk
    · exact settled_settle (h.rest (not_allDone hk.1 (by simp [hk.2])))
    · exact h

/-- **If no task fails, the gathering does not**, and its result says that every task is done. -/
theorem settled_run {l : List (Step ε)} (hl : ∀ i ∈ l, i.Succeeds) (h : Settled g) :
    Settled (run step g l) := by
  induction l generalizing g with
  | nil => exact h
  | cons i l ih =>
    exact ih (fun j hj => hl j (List.mem_cons_of_mem i hj))
      (settled_step (hl i List.mem_cons_self) h)

/-! ### Coming to an end -/

/-- How far a task has come. -/
def Phase.rank : Phase → ℕ
  | .waiting => 0
  | .running => 1
  | .done => 2

theorem rank_move {p : Phase} (hp : (g.phase k).rank ≤ p.rank) (j : ℕ) :
    (g.phase j).rank ≤ ((g.move k p).phase j).rank := by
  unfold Gather.move
  dsimp only
  split_ifs with hj
  · rw [hj]
    exact hp
  · exact le_rfl

theorem rank_step (i : Step ε) (j : ℕ) :
    (g.phase j).rank ≤ ((step g i).phase j).rank := by
  unfold step
  cases i with
  | start k =>
    dsimp only
    split_ifs with hk
    · exact rank_move (by simp [hk.2, Phase.rank]) j
    · exact le_rfl
  | finish k failure =>
    dsimp only
    split_ifs with hk
    · rw [settle_phase]
      exact rank_move (by simp [hk.2, Phase.rank]) j
    · exact le_rfl

theorem rank_run (l : List (Step ε)) (j : ℕ) :
    (g.phase j).rank ≤ ((run step g l).phase j).rank :=
  rel_run (R := fun g g' : Gather ε => (g.phase j).rank ≤ (g'.phase j).rank) (fun _ => le_rfl)
    (fun h h' => h.trans h') (fun _ i => rank_step i j) g l

theorem rank_start (hk : k < g.size) : 1 ≤ ((step g (.start k)).phase k).rank := by
  unfold step
  dsimp only
  split_ifs with hwait
  · simp [Gather.begin, Gather.move, Phase.rank]
  · have hphase : g.phase k ≠ .waiting := fun h => hwait ⟨hk, h⟩
    cases h : g.phase k with
    | waiting => exact absurd h hphase
    | running => exact le_rfl
    | done => exact Nat.le_succ 1

theorem rank_finish (hk : k < g.size) (hrank : 1 ≤ (g.phase k).rank) (failure : Option ε) :
    (step g (.finish k failure)).phase k = .done := by
  unfold step
  dsimp only
  split_ifs with hrun
  · simp [Gather.move]
  · cases h : g.phase k with
    | waiting => simp [h, Phase.rank] at hrank
    | running => exact absurd ⟨hk, h⟩ hrun
    | done => rfl

theorem done_of_rank {p : Phase} (h : 2 ≤ p.rank) : p = .done := by
  cases p with
  | waiting => simp [Phase.rank] at h
  | running => simp [Phase.rank] at h
  | done => rfl

theorem done_of_sublist {l : List (Step ε)} {failure : Option ε} (hk : k < g.size)
    (hl : List.Sublist [.start k, .finish k failure] l) : (run step g l).phase k = .done := by
  obtain ⟨l₁, l₂, rfl, hstart, hfinish⟩ := List.cons_sublist_iff.mp hl
  obtain ⟨a, b, rfl⟩ := List.append_of_mem hstart
  obtain ⟨c, d, rfl⟩ := List.append_of_mem (List.singleton_sublist.mp hfinish)
  have hrank : 1 ≤ ((run step g (a ++ .start k :: b ++ c)).phase k).rank := by
    rw [List.append_assoc, run_append, List.cons_append, run_cons]
    exact (rank_start (by simpa using hk)).trans (rank_run (b ++ c) k)
  rw [← List.append_assoc, run_append, run_cons]
  refine done_of_rank ?_
  have hdone := rank_finish (by simpa using hk) hrank failure
  have hmore := rank_run (g := step (run step g (a ++ .start k :: b ++ c)) (.finish k failure)) d k
  rwa [hdone] at hmore

/-- **The gathering ends when each task does**, in whatever order they start and finish. -/
theorem allDone_of_sublist {l : List (Step ε)}
    (hl : ∀ k < g.size, ∃ failure, List.Sublist [.start k, .finish k failure] l) :
    (run step g l).AllDone := by
  intro k hk
  rw [run_size] at hk
  obtain ⟨failure, hsub⟩ := hl k hk
  exact done_of_sublist hk hsub

end MarketingSuite.Lib.Gathering
