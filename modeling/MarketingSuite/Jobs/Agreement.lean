import MarketingSuite.Jobs.Outcomes

/-! # The row of a job and its message

A message is handed over after the commit of its row, and says what the row says, with its id. What
the compensation for a broker that raises leaves is the bookkeeping of one failed attempt: FAILED
exactly if the job was allowed no second one. -/

namespace MarketingSuite.Jobs.Agreement

open MarketingSuite.Lib.Programs MarketingSuite.Lib.Tables MarketingSuite.Lib.Sessions
open MarketingSuite.Lib.Runs
open MarketingSuite.Base.Values MarketingSuite.Base.Models MarketingSuite.Base.Schema
open MarketingSuite.Base.Payloads MarketingSuite.Repositories.Base
open MarketingSuite.Jobs.Worker MarketingSuite.Jobs.Queue MarketingSuite.Jobs.System
open MarketingSuite.Jobs.Outcomes

/-- The message is the job's payload with the job's id, under its name and for its queue. -/
def Announces (m : Message) (j : JobExecution) : Prop :=
  ∃ payload, j.payload = .obj payload ∧ m.jobName = j.jobName ∧ m.queue = j.queue ∧
    m.kwargs = setItem "job_execution_id" (.id j.id) payload

/-- Every message that the broker is about to get or has got announces a committed row, and the
jobs whose message it refused have failed. -/
structure Agree (w : World) : Prop where
  waiting : ∀ p ∈ w.waiting, ∃ j, rowOf p.1 w.db = some j ∧ Announces p.2 j
  messages : ∀ m ∈ w.messages, ∃ i j, rowOf i w.db = some j ∧ Announces m j
  refused : ∀ i ∈ w.refused, statusOf i w = some .failed

/-- The broker raises on no message of a job that is allowed more than one attempt. -/
def RefusesSingle (w : World) : Event → Prop
  | .handOver k _ (.error _) => ∀ p, w.waiting[k]? = some p →
    ∀ j, rowOf p.1 w.db = some j → j.maxAttempts ≤ 1
  | _ => True

/-- What holds of a world however its broker behaves: the rows behind the messages, which have not
been attempted while the message waits; workers have got their message from the broker; and a job
waits for the broker once, or was taken once, or refused. -/
structure Consistent (w : World) : Prop where
  waiting : ∀ p ∈ w.waiting, ∃ j, rowOf p.1 w.db = some j ∧ Announces p.2 j ∧ j.attempts = 0
  messages : ∀ m ∈ w.messages, ∃ i j, rowOf i w.db = some j ∧ Announces m j
  executions : ∀ x ∈ w.executions, ∀ job, x.job = some job →
    ∃ m ∈ w.messages, jobOf m = .ok (some job.id)
  once : (w.waiting.map Prod.fst).Nodup
  notTaken : ∀ p ∈ w.waiting, ∀ m ∈ w.messages, jobOf m ≠ .ok (some p.1)
  refused : ∀ i ∈ w.refused, (∃ j, rowOf i w.db = some j) ∧ i ∉ w.waiting.map Prod.fst ∧
    ∀ m ∈ w.messages, jobOf m ≠ .ok (some i)

variable {textOf : Exc → String} {w w' : World} {i : Uuid} {j j' : JobExecution} {e : Event}
  {m : Message}

theorem announces_of_sameJob (h : SameJob j j') (ha : Announces m j) : Announces m j' := by
  obtain ⟨payload, hp, hn, hq, hk⟩ := ha
  exact ⟨payload, h.payload.trans hp, hn.trans h.jobName.symm, hq.trans h.queue.symm,
    by rw [hk, h.id]⟩

theorem announces_jobRow (d : Draws) (q : Request) :
    Announces (messageFor q (d.uuid 0)) (jobRow d q) := ⟨q.payload, rfl, rfl, rfl, rfl⟩

theorem jobOf_of_announces (h : Announces m j) : jobOf m = .ok (some j.id) := by
  obtain ⟨payload, -, -, -, hk⟩ := h
  have hid : m.kwargs.lookup "job_execution_id" = some (.id j.id) := by
    rw [hk, lookup_setItem, if_pos rfl]
  simp [jobOf, hid, isTruthy, uuidOf]

/-- The row of a job that no worker has and that the broker does not refuse now is as it was, or
cancelled. -/
theorem change_of_untouched (hrefuse : ∀ k d text, e = .handOver k d (.error text) →
      ∀ p, w.waiting[k]? = some p → p.1 ≠ j.id)
    (hdeliver : ∀ m ∈ w.messages, jobOf m ≠ .ok (some j.id))
    (hfinish : ∀ x ∈ w.executions, ∀ job, x.job = some job → job.id ≠ j.id) :
    change textOf w j.id e j = j ∨ change textOf w j.id e j = cancelRow j := by
  rcases hw : write textOf w e with _ | ⟨jobId, f⟩
  · exact Or.inl (change_of_none hw)
  · rw [change_of_write hw]
    by_cases hj : j.id = jobId
    · rw [if_pos hj]
      cases e with
      | enqueue d q => exact absurd hw (by simp [write])
      | findJob jobId => exact absurd hw (by simp [write])
      | handOver k d answer =>
        rcases answer with text | _
        · simp only [write, Option.map_eq_some_iff, Prod.mk.injEq] at hw
          obtain ⟨p, hp, hid, -⟩ := hw
          exact absurd (hid.trans hj.symm) (hrefuse k d text rfl p hp)
        · exact absurd hw (by simp [write])
      | deliver k d =>
        simp only [write] at hw
        split at hw
        · next jobId' hread =>
          obtain ⟨rfl, -⟩ := Prod.mk.inj (Option.some.inj hw)
          obtain ⟨m, hm, hread⟩ := Option.map_eq_some_iff.mp hread
          rw [← hj] at hread
          exact absurd hread (hdeliver m (List.mem_of_getElem? hm))
        · exact absurd hw (by simp)
      | finish k d outcome =>
        simp only [write, Option.map_eq_some_iff, Prod.mk.injEq] at hw
        obtain ⟨job, hjob, hid, -⟩ := hw
        obtain ⟨x, hx, hjob⟩ := Option.bind_eq_some_iff.mp hjob
        exact absurd (hid.trans hj.symm) (hfinish x (List.mem_of_getElem? hx) job hjob)
      | cancelFound k =>
        simp only [write, Option.map_eq_some_iff, Prod.mk.injEq] at hw
        obtain ⟨job, -, -, rfl⟩ := hw
        exact Or.inr rfl
    · rw [if_neg hj]
      exact Or.inl rfl

theorem fst_ne_of_mem_eraseIdx {l : List (Uuid × Message)} (hl : (l.map Prod.fst).Nodup) {k : ℕ}
    {p q : Uuid × Message} (hq : l[k]? = some q) (hp : p ∈ l.eraseIdx k) : p.1 ≠ q.1 := by
  obtain ⟨n, hn, hnk, rfl⟩ := List.mem_eraseIdx_iff_getElem.mp hp
  obtain ⟨hk, rfl⟩ := List.getElem?_eq_some_iff.mp hq
  have hn' : n < (l.map Prod.fst).length := by simpa using hn
  have hk' : k < (l.map Prod.fst).length := by simpa using hk
  intro heq
  have hsame : (l.map Prod.fst)[n] = (l.map Prod.fst)[k] := by simpa using heq
  exact hnk (hl.getElem_inj_iff.mp hsame)

/-- The rows after a step: a job that still waits has not been attempted. -/
theorem rows_step (textOf : Exc → String) (h : Consistent w) (hrow : rowOf i w.db = some j)
    (e : Event) : ∃ j', rowOf i (step textOf w e).db = some j' ∧ SameJob j j' ∧
      (i ∈ w.waiting.map Prod.fst → (∀ k d text, e = .handOver k d (.error text) →
        ∀ p, w.waiting[k]? = some p → p.1 ≠ i) → j'.attempts = j.attempts) := by
  refine ⟨_, rowOf_step hrow, sameJob_change w i e j, fun hi hrefuse => ?_⟩
  obtain rfl : i = j.id := (rowOf_eq_some.mp hrow).2.symm
  obtain ⟨p, hp, hpj⟩ := List.mem_map.mp hi
  have hsame : change textOf w j.id e j = j ∨ change textOf w j.id e j = cancelRow j := by
    refine change_of_untouched hrefuse (fun m hm => ?_) fun x hx job hjob hne => ?_
    · rw [← hpj]
      exact h.notTaken p hp m hm
    · obtain ⟨m, hm, hread⟩ := h.executions x hx job hjob
      rw [hne, ← hpj] at hread
      exact h.notTaken p hp m hm hread
  rcases hsame with hsame | hsame
  · rw [hsame]
  · rw [hsame]
    rfl

theorem consistent_of_sublist (h : Consistent w)
    (hrows : ∀ i j, rowOf i w.db = some j → ∃ j', rowOf i w'.db = some j' ∧ SameJob j j' ∧
      (i ∈ w'.waiting.map Prod.fst → j'.attempts = j.attempts))
    (hwaiting : w'.waiting.Sublist w.waiting) (hmessages : w'.messages = w.messages)
    (hexecutions : ∀ x ∈ w'.executions, x ∈ w.executions ∨
      ∃ m ∈ w.messages, ∀ job, x.job = some job → jobOf m = .ok (some job.id))
    (hrefused : ∀ i ∈ w'.refused, i ∈ w.refused ∨
      i ∈ w.waiting.map Prod.fst ∧ i ∉ w'.waiting.map Prod.fst) : Consistent w' where
  waiting p hp := by
    obtain ⟨j, hrow, ha, hattempts⟩ := h.waiting p (hwaiting.subset hp)
    obtain ⟨j', hrow', hsame, hatt⟩ := hrows _ _ hrow
    exact ⟨j', hrow', announces_of_sameJob hsame ha,
      (hatt (List.mem_map_of_mem hp)).trans hattempts⟩
  messages m hm := by
    obtain ⟨i, j, hrow, ha⟩ := h.messages m (hmessages ▸ hm)
    obtain ⟨j', hrow', hsame, -⟩ := hrows _ _ hrow
    exact ⟨i, j', hrow', announces_of_sameJob hsame ha⟩
  executions x hx job hjob := by
    rw [hmessages]
    rcases hexecutions x hx with hx | ⟨m, hm, hread⟩
    · exact h.executions x hx job hjob
    · exact ⟨m, hm, hread job hjob⟩
  once := h.once.sublist (hwaiting.map _)
  notTaken p hp m hm := h.notTaken p (hwaiting.subset hp) m (hmessages ▸ hm)
  refused i hi := by
    rw [hmessages]
    rcases hrefused i hi with hi | ⟨hi, hgone⟩
    · obtain ⟨⟨j, hrow⟩, hnot, hmess⟩ := h.refused i hi
      obtain ⟨j', hrow', -⟩ := hrows _ _ hrow
      exact ⟨⟨j', hrow'⟩, fun hin => hnot ((hwaiting.map _).subset hin), hmess⟩
    · obtain ⟨p, hp, rfl⟩ := List.mem_map.mp hi
      obtain ⟨j, hrow, -⟩ := h.waiting p hp
      obtain ⟨j', hrow', -⟩ := hrows _ _ hrow
      exact ⟨⟨j', hrow'⟩, hgone, h.notTaken p hp⟩

theorem consistent_enqueue (textOf : Exc → String) (d : Draws) (q : Request) (h : Consistent w) :
    Consistent (step textOf w (.enqueue d q)) := by
  have hrows := fun i j hrow => rows_step textOf (i := i) (j := j) h hrow (.enqueue d q)
  rcases persist_cases d q w.db with ⟨hfresh, s', hret, hnew⟩ | ⟨-, e, hraise⟩
  · unfold Prog.Returns at hret
    simp only [step, hret] at hrows ⊢
    have hold : ∀ i j, rowOf i w.db = some j → i ≠ d.uuid 0 := by
      rintro i j hrow rfl
      rw [hrow] at hfresh
      exact Option.some_ne_none _ hfresh
    have hmess : ∀ m ∈ w.messages, jobOf m ≠ .ok (some (d.uuid 0)) := by
      intro m hm hread
      obtain ⟨i, j, hrow, ha⟩ := h.messages m hm
      have hid : j.id = i := (rowOf_eq_some.mp hrow).2
      rw [jobOf_of_announces ha, hid] at hread
      exact hold i j hrow (Option.some.inj (Except.ok.inj hread))
    refine ⟨fun p hp => ?_, fun m hm => ?_, h.executions, ?_, fun p hp m hm => ?_, fun i hi => ?_⟩
    · rcases List.mem_append.mp hp with hp | hp
      · obtain ⟨j, hrow, ha, hatt⟩ := h.waiting p hp
        obtain ⟨j', hrow', hsame, hsameatt⟩ := hrows _ _ hrow
        exact ⟨j', hrow', announces_of_sameJob hsame ha,
          (hsameatt (List.mem_map_of_mem hp) fun _ _ _ he => absurd he (by simp)).trans hatt⟩
      · obtain rfl := List.mem_singleton.mp hp
        exact ⟨jobRow d q, by simp [hnew], announces_jobRow d q, rfl⟩
    · obtain ⟨i, j, hrow, ha⟩ := h.messages m hm
      obtain ⟨j', hrow', hsame, -⟩ := hrows _ _ hrow
      exact ⟨i, j', hrow', announces_of_sameJob hsame ha⟩
    · simp only [List.map_append, List.map_cons, List.map_nil]
      refine List.nodup_append.mpr ⟨h.once, List.nodup_singleton _, fun i hi k hk => ?_⟩
      obtain ⟨p, hp, rfl⟩ := List.mem_map.mp hi
      obtain ⟨j, hrow, -⟩ := h.waiting p hp
      rw [List.mem_singleton.mp hk]
      exact hold _ j hrow
    · rcases List.mem_append.mp hp with hp | hp
      · exact h.notTaken p hp m hm
      · obtain rfl := List.mem_singleton.mp hp
        exact hmess m hm
    · obtain ⟨⟨j, hrow⟩, hnot, hmess⟩ := h.refused i hi
      obtain ⟨j', hrow', -⟩ := hrows _ _ hrow
      refine ⟨⟨j', hrow'⟩, fun hin => ?_, hmess⟩
      obtain ⟨p, hp, rfl⟩ := List.mem_map.mp hin
      rcases List.mem_append.mp hp with hp | hp
      · exact hnot (List.mem_map_of_mem hp)
      · obtain rfl := List.mem_singleton.mp hp
        exact hold _ j hrow rfl
  · unfold Prog.Raises at hraise
    simpa [step, hraise] using h

theorem consistent_taken (textOf : Exc → String) (k : ℕ) (d : Draws) (u : Unit)
    (h : Consistent w) : Consistent (step textOf w (.handOver k d (.ok u))) := by
  rcases hk : w.waiting[k]? with _ | ⟨jobId, m⟩
  · simpa [step, hk] using h
  · simp only [step, hk]
    have hp : (jobId, m) ∈ w.waiting := List.mem_of_getElem? hk
    obtain ⟨j, hrow, ha, -⟩ := h.waiting _ hp
    have hread : jobOf m = .ok (some jobId) := by
      rw [jobOf_of_announces ha, (rowOf_eq_some.mp hrow).2]
    have hsub : (w.waiting.eraseIdx k).Sublist w.waiting := List.eraseIdx_sublist _ _
    refine ⟨fun p hp => h.waiting p (hsub.subset hp), fun q hq => ?_, fun x hx job hjob => ?_,
      h.once.sublist (hsub.map _), fun p hp q hq => ?_, fun i hi => ?_⟩
    · rcases List.mem_append.mp hq with hq | hq
      · exact h.messages q hq
      · obtain rfl := List.mem_singleton.mp hq
        exact ⟨jobId, j, hrow, ha⟩
    · obtain ⟨q, hq, hx⟩ := h.executions x hx job hjob
      exact ⟨q, List.mem_append_left _ hq, hx⟩
    · rcases List.mem_append.mp hq with hq | hq
      · exact h.notTaken p (hsub.subset hp) q hq
      · obtain rfl := List.mem_singleton.mp hq
        rw [hread]
        intro heq
        exact fst_ne_of_mem_eraseIdx h.once hk hp (Option.some.inj (Except.ok.inj heq)).symm
    · obtain ⟨hrow', hnot, hmess⟩ := h.refused i hi
      refine ⟨hrow', fun hin => hnot ((hsub.map _).subset hin), fun q hq => ?_⟩
      rcases List.mem_append.mp hq with hq | hq
      · exact hmess q hq
      · obtain rfl := List.mem_singleton.mp hq
        rw [hread]
        intro heq
        have hi' : jobId = i := Option.some.inj (Except.ok.inj heq)
        exact hnot (hi' ▸ List.mem_map_of_mem hp)

/-- What workers and `cancel_job` do leaves alone what waits, what was taken and what was refused. -/
theorem lists_step (textOf : Exc → String) (w : World) (henqueue : ∀ d q, e ≠ .enqueue d q)
    (hhand : ∀ k d answer, e ≠ .handOver k d answer) :
    (step textOf w e).waiting = w.waiting ∧ (step textOf w e).messages = w.messages ∧
      (step textOf w e).refused = w.refused := by
  cases e with
  | enqueue d q => exact absurd rfl (henqueue d q)
  | handOver k d answer => exact absurd rfl (hhand k d answer)
  | _ => simp only [step]; (repeat' split) <;> exact ⟨rfl, rfl, rfl⟩

theorem executions_step (textOf : Exc → String) (w : World) (e : Event) :
    ∀ x ∈ (step textOf w e).executions, x ∈ w.executions ∨
      ∃ m ∈ w.messages, ∀ job, x.job = some job → jobOf m = .ok (some job.id) := by
  intro x hx
  cases e with
  | deliver k d =>
    rcases hk : w.messages[k]? with _ | m
    · exact Or.inl (by simpa [step, hk] using hx)
    · have hm : m ∈ w.messages := List.mem_of_getElem? hk
      rcases hread : jobOf m with e | _ | jobId
      · exact Or.inl (by simpa [step, hk, hread] using hx)
      · have hx' : x ∈ w.executions ∨ x = ⟨m, none⟩ := by simpa [step, hk, hread] using hx
        rcases hx' with hx' | rfl
        · exact Or.inl hx'
        · exact Or.inr ⟨m, hm, fun _ hjob => absurd hjob (by simp)⟩
      · obtain ⟨s', hret, -⟩ := mark_spec (f := startRow d) jobId (fun _ => rfl) w.db
        unfold Prog.Returns at hret
        have hx' : x ∈ w.executions ∨ x = ⟨m, (rowOf jobId w.db).map (startRow d)⟩ := by
          simpa [step, hk, hread, hret] using hx
        rcases hx' with hx' | rfl
        · exact Or.inl hx'
        · refine Or.inr ⟨m, hm, fun job hjob => ?_⟩
          obtain ⟨j, hrow, rfl⟩ := Option.map_eq_some_iff.mp hjob
          have hid : j.id = jobId := (rowOf_eq_some.mp hrow).2
          rw [hread, ← hid]
          rfl
  | finish k d outcome =>
    refine Or.inl ?_
    simp only [step] at hx
    split at hx
    · exact hx
    · exact List.eraseIdx_subset hx
    · exact List.eraseIdx_subset hx
  | _ => refine Or.inl ?_; simp only [step] at hx; (repeat' split at hx) <;> exact hx

theorem consistent_apart (textOf : Exc → String) (h : Consistent w)
    (henqueue : ∀ d q, e ≠ .enqueue d q) (hhand : ∀ k d answer, e ≠ .handOver k d answer) :
    Consistent (step textOf w e) := by
  obtain ⟨hwaiting, hmessages, hrefused⟩ := lists_step textOf w henqueue hhand
  refine consistent_of_sublist h (fun i j hrow => ?_) (by rw [hwaiting]) hmessages
    (executions_step textOf w e) fun i hi => Or.inl (by rw [← hrefused]; exact hi)
  obtain ⟨j', hrow', hsame, hatt⟩ := rows_step textOf h hrow e
  refine ⟨j', hrow', hsame, fun hi => hatt (hwaiting ▸ hi) fun k d text he => ?_⟩
  exact absurd he (hhand k d _)

/-- **Every step keeps a world consistent.** -/
theorem consistent_step (textOf : Exc → String) (h : Consistent w) (e : Event) :
    Consistent (step textOf w e) := by
  have hrows := fun i j hrow => rows_step textOf (i := i) (j := j) h hrow e
  cases e with
  | enqueue d q => exact consistent_enqueue textOf d q h
  | handOver k d answer =>
    rcases answer with text | u
    · rcases hk : w.waiting[k]? with _ | ⟨jobId, m⟩
      · simpa [step, hk] using h
      · have hw : (step textOf w (.handOver k d (.error text))).waiting = w.waiting.eraseIdx k := by
          simp [step, hk]
        refine consistent_of_sublist h (fun i j hrow => ?_) (hw ▸ List.eraseIdx_sublist _ _)
          (by simp [step, hk]) (fun x hx => Or.inl (by simpa [step, hk] using hx)) fun i hi => ?_
        · obtain ⟨j', hrow', hsame, hatt⟩ := hrows i j hrow
          refine ⟨j', hrow', hsame, fun hi => ?_⟩
          rw [hw] at hi
          obtain ⟨p, hp, rfl⟩ := List.mem_map.mp hi
          refine hatt (List.mem_map_of_mem (List.eraseIdx_subset hp)) ?_
          rintro k' d' text' heq q hq
          obtain ⟨rfl, rfl, -⟩ := Event.handOver.inj heq
          exact (fst_ne_of_mem_eraseIdx h.once hq hp).symm
        · have hi' : i ∈ w.refused ∨ i = jobId := by simpa [step, hk] using hi
          rcases hi' with hi' | rfl
          · exact Or.inl hi'
          · refine Or.inr ⟨List.mem_map_of_mem (f := Prod.fst) (List.mem_of_getElem? hk), ?_⟩
            rw [hw]
            intro hin
            obtain ⟨p, hp, hpi⟩ := List.mem_map.mp hin
            exact fst_ne_of_mem_eraseIdx h.once hk hp hpi
    · exact consistent_taken textOf k d u h
  | deliver k d => exact consistent_apart textOf h (by simp) (by simp)
  | finish k d outcome => exact consistent_apart textOf h (by simp) (by simp)
  | findJob executionId => exact consistent_apart textOf h (by simp) (by simp)
  | cancelFound k => exact consistent_apart textOf h (by simp) (by simp)

theorem consistent_idle (db : Database) : Consistent (idle db) where
  waiting _ hp := absurd hp List.not_mem_nil
  messages _ hm := absurd hm List.not_mem_nil
  executions _ hx := absurd hx List.not_mem_nil
  once := List.nodup_nil
  notTaken _ hp := absurd hp List.not_mem_nil
  refused _ hi := absurd hi List.not_mem_nil

theorem failed_step (textOf : Exc → String) (h : Consistent w) (hi : i ∈ w.refused)
    (hfailed : statusOf i w = some .failed) (e : Event) :
    statusOf i (step textOf w e) = some .failed := by
  obtain ⟨⟨j, hrow⟩, hnot, hmess⟩ := h.refused i hi
  obtain rfl : i = j.id := (rowOf_eq_some.mp hrow).2.symm
  have hst : j.status = .failed := by simpa [statusOf, hrow] using hfailed
  have hchange : change textOf w j.id e j = j ∨ change textOf w j.id e j = cancelRow j := by
    refine change_of_untouched (fun k d text _ p hp hpj => ?_) hmess fun x hx job hjob hne => ?_
    · exact hnot (hpj ▸ List.mem_map_of_mem (List.mem_of_getElem? hp))
    · obtain ⟨m, hm, hread⟩ := h.executions x hx job hjob
      rw [hne] at hread
      exact hmess m hm hread
  simp only [statusOf, rowOf_step hrow, Option.map_some, Option.some.injEq]
  rcases hchange with hchange | hchange
  · rw [hchange, hst]
  · rw [hchange]
    rfl

theorem compensated_iff (textOf : Exc → String) (h : Consistent w) {k : ℕ} {p : Uuid × Message}
    (hk : w.waiting[k]? = some p) (d : Draws) (text : String) :
    statusOf p.1 (step textOf w (.handOver k d (.error text))) = some .failed ↔
      ∀ j, rowOf p.1 w.db = some j → j.maxAttempts ≤ 1 := by
  obtain ⟨j, hrow, -, hatt⟩ := h.waiting p (List.mem_of_getElem? hk)
  have hw : write textOf w (.handOver k d (.error text)) =
      some (p.1, failRow d ("Broker failure: " ++ text)) := by simp [write, hk]
  have hlast : lastAttempt j = true ↔ j.maxAttempts ≤ 1 := by simp [lastAttempt, hatt]
  simp only [statusOf, rowOf_step hrow, change_of_write hw, if_true, Option.map_some,
    Option.some.injEq, status_failRow, hrow, forall_eq', ← hlast]
  split_ifs with hl
  · simp [hl]
  · simp [hl]

/-- **One step and the jobs that the broker refused**: they are FAILED after it exactly if it
refuses none that is allowed a second attempt. -/
theorem refused_step (textOf : Exc → String) (h : Consistent w)
    (hfailed : ∀ i ∈ w.refused, statusOf i w = some .failed) (e : Event) :
    (∀ i ∈ (step textOf w e).refused, statusOf i (step textOf w e) = some .failed) ↔
      RefusesSingle w e := by
  have hold : ∀ i ∈ w.refused, statusOf i (step textOf w e) = some .failed :=
    fun i hi => failed_step textOf h hi (hfailed i hi) e
  by_cases hhand : ∃ k d text, e = .handOver k d (.error text)
  · obtain ⟨k, d, text, rfl⟩ := hhand
    rcases hk : w.waiting[k]? with _ | p
    · have hrefused : (step textOf w (.handOver k d (.error text))).refused = w.refused := by
        simp [step, hk]
      simpa [RefusesSingle, hk, hrefused] using hold
    · have hrefused : (step textOf w (.handOver k d (.error text))).refused =
          w.refused ++ [p.1] := by simp [step, hk]
      have hiff : RefusesSingle w (.handOver k d (.error text)) ↔
          ∀ j, rowOf p.1 w.db = some j → j.maxAttempts ≤ 1 := by simp [RefusesSingle, hk]
      rw [hiff, ← compensated_iff textOf h hk d text, hrefused]
      constructor
      · exact fun hall => hall p.1 (by simp)
      · intro hnew i hi
        rcases List.mem_append.mp hi with hi | hi
        · exact hold i hi
        · obtain rfl := List.mem_singleton.mp hi
          exact hnew
  · have hrefused : (step textOf w e).refused = w.refused := by
      cases e with
      | handOver k d answer =>
        rcases answer with text | u
        · exact absurd ⟨k, d, text, rfl⟩ hhand
        · simp only [step]; split <;> rfl
      | _ => simp only [step]; (repeat' split) <;> rfl
    refine iff_of_true (hrefused ▸ hold) ?_
    cases e with
    | handOver k d answer =>
      rcases answer with text | u
      · exact absurd ⟨k, d, text, rfl⟩ hhand
      · trivial
    | _ => trivial

/-- **Row and broker agree** in every state of a run exactly if the broker refuses no message of a
job that is allowed more than one attempt. -/
theorem agree_iff (textOf : Exc → String) (db : Database) (l : List Event) :
    Always (step textOf) Agree (idle db) l ↔ Along (step textOf) RefusesSingle (idle db) l := by
  have hcons : ∀ pre, Consistent (run (step textOf) (idle db) pre) := fun pre =>
    inv_run (I := Consistent) (fun w e h => consistent_step textOf h e) pre (consistent_idle db)
  have hexact : Always (step textOf) Agree (idle db) l ↔ Always (step textOf)
      (fun w => Consistent w ∧ ∀ i ∈ w.refused, statusOf i w = some .failed) (idle db) l := by
    rw [always_iff, always_iff]
    refine forall_congr' fun pre => forall_congr' fun _ => ?_
    constructor
    · exact fun h => ⟨hcons pre, h.refused⟩
    · rintro ⟨h, hfailed⟩
      refine ⟨fun p hp => ?_, h.messages, hfailed⟩
      obtain ⟨j, hrow, ha, -⟩ := h.waiting p hp
      exact ⟨j, hrow, ha⟩
  rw [hexact]
  refine always_iff_along (fun w e h => ?_)
    ⟨consistent_idle db, fun _ hi => absurd hi List.not_mem_nil⟩
  rw [← refused_step textOf h.1 h.2 e]
  exact and_iff_right (consistent_step textOf h.1 e)

/-- **A job that waits for an execution that no message announces**: the broker raises on a job with
the default of three attempts, and the row says RETRYING. -/
theorem refused_retrying : ¬ Always (step fun _ => "error") Agree (idle Database.empty)
    [.enqueue (drawsFrom 50 0 "") ⟨"integration.sync", [], "default", .default, 0, 3⟩,
      .handOver 0 (drawsFrom 0 1 "") (.error "connection refused")] := by
  intro h
  have hfailed := h.2.2.refused 50 (by decide)
  exact absurd hfailed (by decide)

end MarketingSuite.Jobs.Agreement
