import MarketingSuite.Lib.Programs
import MarketingSuite.Lib.Runs
import Mathlib.Logic.Function.Basic

/-! # Transactions whose statements interleave

Any number of transactions work on one committed state, each a machine whose phase says which
statement comes next. A read sees the committed state with the transaction's own writes applied, as
READ COMMITTED has it. The writes are kept as a program and run again on the state that the commit
finds, which fails if a constraint forbids them there. A statement that waits for a lock is one that
comes later. -/

namespace MarketingSuite.Lib.Transactions

open MarketingSuite.Lib.Programs MarketingSuite.Lib.Runs

variable {σ ε π ι : Type}

/-- A statement: it reads and goes on or gives up, it writes, or it commits. -/
inductive Statement (σ ε π : Type)
  | read (q : σ → Except ε π)
  | write (q : Prog σ ε Unit) (next : π)
  | commit

/-- The statement that runs a program which only reads. -/
def Statement.ask (q : Prog σ ε π) : Statement σ ε π := .read fun s => (q s).1

/-- How far a transaction is. -/
inductive Status (ε π : Type)
  | running (p : π)
  | committed (p : π)
  | failed (e : ε)
deriving DecidableEq

/-- A transaction: its status, and what it has written. -/
structure Session (σ ε π : Type) where
  status : Status ε π
  writes : Prog σ ε Unit

namespace Session

/-- A transaction that has written nothing. -/
def fresh (p : π) : Session σ ε π := ⟨.running p, pure ()⟩

/-- What the transaction sees. -/
def view (t : Session σ ε π) (s : σ) : σ := (t.writes s).2

/-- The next statement of the transaction, on the committed state. -/
def step (next : π → Statement σ ε π) (s : σ) (t : Session σ ε π) : Session σ ε π × σ :=
  match t.status with
  | .running p =>
    match next p with
    | .read q =>
      match q (t.view s) with
      | .ok p' => ({ t with status := .running p' }, s)
      | .error e => ({ t with status := .failed e }, s)
    | .write q p' =>
      match (q (t.view s)).1 with
      | .ok _ => (⟨.running p', t.writes >>= fun _ => q⟩, s)
      | .error e => ({ t with status := .failed e }, s)
    | .commit =>
      match t.writes s with
      | (.ok _, s') => ({ t with status := .committed p }, s')
      | (.error e, _) => ({ t with status := .failed e }, s)
  | _ => (t, s)

variable {next : π → Statement σ ε π} {s s' v : σ} {t : Session σ ε π} {p p' : π} {e : ε}
  {f : σ → Except ε π} {q : Prog σ ε Unit}

theorem view_of_returns (h : t.writes.Returns s () v) : t.view s = v := congrArg Prod.snd h

theorem view_of_unwritten (h : t.writes = pure ()) (s : σ) : t.view s = s := by
  rw [view, h]
  rfl

theorem step_of_stopped (h : ∀ p, t.status ≠ .running p) : t.step next s = (t, s) := by
  unfold step
  rcases hs : t.status with p | p | e
  · exact absurd hs (h p)
  · rfl
  · rfl

theorem step_read_ok (hp : t.status = .running p) (hn : next p = .read f)
    (hf : f (t.view s) = .ok p') : t.step next s = ({ t with status := .running p' }, s) := by
  simp only [step, hp, hn, hf]

theorem step_read_error (hp : t.status = .running p) (hn : next p = .read f)
    (hf : f (t.view s) = .error e) : t.step next s = ({ t with status := .failed e }, s) := by
  simp only [step, hp, hn, hf]

theorem step_write_ok (hp : t.status = .running p) (hn : next p = .write q p')
    (hq : q.Returns (t.view s) () v) :
    t.step next s = (⟨.running p', t.writes >>= fun _ => q⟩, s) := by
  unfold Prog.Returns at hq
  simp only [step, hp, hn, hq]

theorem step_write_error (hp : t.status = .running p) (hn : next p = .write q p')
    (hq : q.Raises (t.view s) e v) : t.step next s = ({ t with status := .failed e }, s) := by
  unfold Prog.Raises at hq
  simp only [step, hp, hn, hq]

theorem step_commit_ok (hp : t.status = .running p) (hn : next p = .commit)
    (hw : t.writes.Returns s () s') : t.step next s = ({ t with status := .committed p }, s') := by
  unfold Prog.Returns at hw
  simp only [step, hp, hn, hw]

theorem step_commit_error (hp : t.status = .running p) (hn : next p = .commit)
    (hw : t.writes.Raises s e s') : t.step next s = ({ t with status := .failed e }, s) := by
  unfold Prog.Raises at hw
  simp only [step, hp, hn, hw]

/-- **What a step can do**: the transaction has ended before, it goes on reading or writing, it
commits, or it fails. -/
inductive Effect (next : π → Statement σ ε π) (s : σ) (t : Session σ ε π) :
    Session σ ε π × σ → Prop
  | stopped (h : ∀ p, t.status ≠ .running p) : Effect next s t (t, s)
  | read {p p' : π} {f : σ → Except ε π} (hp : t.status = .running p) (hn : next p = .read f)
      (hf : f (t.view s) = .ok p') : Effect next s t ({ t with status := .running p' }, s)
  | write {p p' : π} {q : Prog σ ε Unit} {v : σ} (hp : t.status = .running p) (hn : next p = .write q p')
      (hq : q.Returns (t.view s) () v) :
      Effect next s t (⟨.running p', t.writes >>= fun _ => q⟩, s)
  | committed {p : π} {s' : σ} (hp : t.status = .running p) (hn : next p = .commit)
      (hw : t.writes.Returns s () s') : Effect next s t ({ t with status := .committed p }, s')
  | failed {p : π} {e : ε} (hp : t.status = .running p) :
      Effect next s t ({ t with status := .failed e }, s)

theorem effect_step : Effect next s t (t.step next s) := by
  rcases hs : t.status with p | p | e
  · rcases hn : next p with f | ⟨q, p'⟩ | _
    · rcases hf : f (t.view s) with e | p'
      · rw [step_read_error hs hn hf]
        exact .failed hs
      · rw [step_read_ok hs hn hf]
        exact .read hs hn hf
    · rcases q.returns_or_raises (t.view s) with ⟨⟨⟩, v, hq⟩ | ⟨e, v, hq⟩
      · rw [step_write_ok hs hn hq]
        exact .write hs hn hq
      · rw [step_write_error hs hn hq]
        exact .failed hs
    · rcases t.writes.returns_or_raises s with ⟨⟨⟩, s', hw⟩ | ⟨e, s', hw⟩
      · rw [step_commit_ok hs hn hw]
        exact .committed hs hn hw
      · rw [step_commit_error hs hn hw]
        exact .failed hs
  · have hstop : ∀ p', t.status ≠ .running p' := fun p' hp => by rw [hs] at hp; cases hp
    rw [step_of_stopped hstop]
    exact .stopped hstop
  · have hstop : ∀ p', t.status ≠ .running p' := fun p' hp => by rw [hs] at hp; cases hp
    rw [step_of_stopped hstop]
    exact .stopped hstop

end Session

/-- The committed state, and the transactions. -/
structure World (σ ε π ι : Type) where
  db : σ
  sessions : ι → Session σ ε π

section Steps

variable [DecidableEq ι] (next : ι → π → Statement σ ε π)

/-- The next statement of the transaction `i`. -/
def step (w : World σ ε π ι) (i : ι) : World σ ε π ι :=
  let (t, s) := (w.sessions i).step (next i) w.db
  ⟨s, Function.update w.sessions i t⟩

/-- All transactions begin. -/
def begun (first : ι → π) (s : σ) : World σ ε π ι := ⟨s, fun i => .fresh (first i)⟩

variable {next} {w : World σ ε π ι} {i j : ι}

@[simp] theorem step_sessions_self :
    (step next w i).sessions i = ((w.sessions i).step (next i) w.db).1 := by
  simp [step]

@[simp] theorem step_sessions_of_ne (h : j ≠ i) : (step next w i).sessions j = w.sessions j := by
  simp [step, h]

@[simp] theorem step_db : (step next w i).db = ((w.sessions i).step (next i) w.db).2 := rfl

/-- A step is what it does to the transaction whose statement it is, and to the committed state. -/
theorem exists_effect (next : ι → π → Statement σ ε π) (w : World σ ε π ι) (i : ι) :
    ∃ t s, Session.Effect (next i) w.db (w.sessions i) (t, s) ∧
      step next w i = ⟨s, Function.update w.sessions i t⟩ := by
  rcases h : (w.sessions i).step (next i) w.db with ⟨t, s⟩
  refine ⟨t, s, ?_, ?_⟩
  · rw [← h]
    exact Session.effect_step
  · unfold step
    rw [h]

theorem step_eq_self (h : ∀ p, (w.sessions i).status ≠ .running p) : step next w i = w := by
  simp [step, Session.step_of_stopped h]

theorem run_replicate_eq_self (h : ∀ p, (w.sessions i).status ≠ .running p) (n : ℕ) :
    run (step next) w (List.replicate n i) = w := by
  induction n with
  | zero => rfl
  | succ n ih => rw [List.replicate_succ, run_cons, step_eq_self h, ih]

theorem committed_run {p : π} (h : (w.sessions i).status = .committed p) (l : List ι) :
    ((run (step next) w l).sessions i).status = .committed p := by
  refine inv_run (I := fun w : World σ ε π ι => (w.sessions i).status = .committed p)
    (fun w j hi => ?_) l h
  by_cases hij : i = j
  · subst hij
    rw [step_eq_self fun q hq => by rw [hi] at hq; cases hq]
    exact hi
  · rw [step_sessions_of_ne hij]
    exact hi

end Steps

/-! ### A transaction alone

With no other one between its statements, a transaction does what its statements do one after
another. -/

/-- The statements from the phase `p` on, `n` at most, up to the commit. -/
def solo (next : π → Statement σ ε π) : ℕ → π → Prog σ ε π
  | 0, p => pure p
  | n + 1, p =>
    match next p with
    | .read q => fun s =>
      match q s with
      | .ok p' => solo next n p' s
      | .error e => (.error e, s)
    | .write q p' => do q; solo next n p'
    | .commit => pure p

theorem solo_ask {next : π → Statement σ ε π} {p : π} {q : Prog σ ε π} (n : ℕ)
    (hn : next p = .ask q) (hq : q.Frames id) :
    solo next (n + 1) p = q >>= solo next n := by
  funext s
  have hs : (q s).2 = s := hq s
  simp only [solo, hn, Statement.ask, bind]
  rcases h : q s with ⟨e | p', s'⟩
  · rw [h] at hs
    simp [hs.symm]
  · rw [h] at hs
    simp [hs.symm]

theorem solo_write {next : π → Statement σ ε π} {p p' : π} {q : Prog σ ε Unit} (n : ℕ)
    (hn : next p = .write q p') : solo next (n + 1) p = q >>= fun _ => solo next n p' := by
  simp only [solo, hn]

theorem solo_commit {next : π → Statement σ ε π} {p : π} (n : ℕ) (hn : next p = .commit) :
    solo next n p = pure p := by
  cases n with
  | zero => rfl
  | succ n => simp only [solo, hn]

section Alone

variable [DecidableEq ι] {next : ι → π → Statement σ ε π} {w : World σ ε π ι} {i : ι} {p p' : π}
  {v v' : σ} {e : ε} {n : ℕ}

theorem run_commit (hp : (w.sessions i).status = .running p)
    (hw : (w.sessions i).writes.Returns w.db () v) (hc : next i p = .commit) (n : ℕ) :
    (run (step next) w (List.replicate (n + 1) i)).db = v ∧
      ((run (step next) w (List.replicate (n + 1) i)).sessions i).status = .committed p := by
  have hstep := Session.step_commit_ok hp hc hw
  rw [List.replicate_succ, run_cons, run_replicate_eq_self (by simp [hstep])]
  simp [hstep]

theorem run_failed (hf : ((step next w i).sessions i).status = .failed e)
    (hdb : (step next w i).db = w.db) (n : ℕ) :
    (run (step next) w (List.replicate (n + 1) i)).db = w.db ∧
      ((run (step next) w (List.replicate (n + 1) i)).sessions i).status = .failed e := by
  rw [List.replicate_succ, run_cons, run_replicate_eq_self (fun p hp => by rw [hf] at hp; cases hp)]
  exact ⟨hdb, hf⟩

/-- **A transaction whose statements return commits** what they leave. -/
theorem run_alone_of_returns (hp : (w.sessions i).status = .running p)
    (hw : (w.sessions i).writes.Returns w.db () v) (hs : (solo (next i) n p).Returns v p' v')
    (hc : next i p' = .commit) :
    (run (step next) w (List.replicate (n + 1) i)).db = v' ∧
      ((run (step next) w (List.replicate (n + 1) i)).sessions i).status = .committed p' := by
  induction n generalizing w p v with
  | zero =>
    obtain ⟨rfl, rfl⟩ := Prog.returns_pure.mp hs
    exact run_commit hp hw hc 0
  | succ n ih =>
    rcases hn : next i p with f | ⟨q, p₁⟩ | _
    · simp only [solo, hn, Prog.Returns] at hs
      rcases hf : f v with e | p₁
      · simp [hf] at hs
      · have hstep := Session.step_read_ok hp hn
          (show f ((w.sessions i).view w.db) = .ok p₁ by rw [Session.view_of_returns hw, hf])
        rw [hf] at hs
        rw [List.replicate_succ, run_cons]
        exact ih (by simp [hstep]) (by simpa [hstep] using hw) hs
    · simp only [solo, hn] at hs
      obtain ⟨⟨⟩, t, hq, hs⟩ := Prog.returns_bind.mp hs
      have hstep := Session.step_write_ok (s := w.db) hp hn
        (by rw [Session.view_of_returns hw]; exact hq)
      rw [List.replicate_succ, run_cons]
      refine ih (by simp [hstep]) ?_ hs
      rw [step_sessions_self, step_db, hstep]
      exact Prog.returns_bind.mpr ⟨(), v, hw, hq⟩
    · simp only [solo, hn] at hs
      obtain ⟨rfl, rfl⟩ := Prog.returns_pure.mp hs
      exact run_commit hp hw hn (n + 1)

/-- **A transaction of whose statements one raises** leaves nothing. -/
theorem run_alone_of_raises (hp : (w.sessions i).status = .running p)
    (hw : (w.sessions i).writes.Returns w.db () v) (hs : (solo (next i) n p).Raises v e v') :
    (run (step next) w (List.replicate (n + 1) i)).db = w.db ∧
      ((run (step next) w (List.replicate (n + 1) i)).sessions i).status = .failed e := by
  induction n generalizing w p v with
  | zero => simp [solo, Prog.Raises, pure] at hs
  | succ n ih =>
    rcases hn : next i p with f | ⟨q, p₁⟩ | _
    · simp only [solo, hn, Prog.Raises] at hs
      rcases hf : f v with e' | p₁
      · have hstep := Session.step_read_error hp hn
          (show f ((w.sessions i).view w.db) = .error e' by rw [Session.view_of_returns hw, hf])
        simp only [hf, Prod.mk.injEq, Except.error.injEq] at hs
        obtain ⟨rfl, rfl⟩ := hs
        exact run_failed (by simp [hstep]) (by simp [hstep]) (n + 1)
      · have hstep := Session.step_read_ok hp hn
          (show f ((w.sessions i).view w.db) = .ok p₁ by rw [Session.view_of_returns hw, hf])
        rw [hf] at hs
        have h := ih (w := step next w i) (by simp [hstep]) (by simpa [hstep] using hw) hs
        rw [List.replicate_succ, run_cons]
        simpa [hstep] using h
    · simp only [solo, hn] at hs
      rcases Prog.raises_bind.mp hs with hq | ⟨⟨⟩, t, hq, hs⟩
      · have hstep := Session.step_write_error (s := w.db) hp hn
          (by rw [Session.view_of_returns hw]; exact hq)
        exact run_failed (by simp [hstep]) (by simp [hstep]) (n + 1)
      · have hstep := Session.step_write_ok (s := w.db) hp hn
          (by rw [Session.view_of_returns hw]; exact hq)
        have h := ih (w := step next w i) (by simp [hstep]) (v := t)
          (by rw [step_sessions_self, step_db, hstep]
              exact Prog.returns_bind.mpr ⟨(), v, hw, hq⟩) hs
        rw [List.replicate_succ, run_cons]
        simpa [hstep] using h
    · simp [solo, hn, Prog.Raises, pure] at hs

/-- **A transaction alone** commits as its statements settle, whatever the others are. -/
theorem run_alone (first : ι → π) (s : σ) (hc : ∀ p v, (solo (next i) n (first i)).Returns s p v →
    next i p = .commit) :
    (run (step next) (begun first s) (List.replicate (n + 1) i)).db =
      (solo (next i) n (first i)).settle s := by
  have hw : ((begun first s : World σ ε π ι).sessions i).writes.Returns s () s :=
    Prog.returns_pure.mpr ⟨rfl, rfl⟩
  rcases (solo (next i) n (first i)).returns_or_raises s with ⟨p, v, h⟩ | ⟨e, v, h⟩
  · rw [Prog.settle_of_returns h]
    exact (run_alone_of_returns rfl hw h (hc p v h)).1
  · rw [Prog.settle_of_raises h]
    exact (run_alone_of_raises rfl hw h).1

end Alone

end MarketingSuite.Lib.Transactions
