import MarketingSuite.Base.Values
import MarketingSuite.Lib.Gathering

/-! # Events

`app/events/registry.py` and `app/events/dispatcher.py`. Handlers are objects that are compared with
`==`; which of them are event handlers, and how they print, is a parameter. A handler that is called
returns or raises an exception, and the text of an exception is a string. -/

namespace MarketingSuite.Events.Dispatcher

open MarketingSuite.Base.Values MarketingSuite.Lib.Runs MarketingSuite.Lib.Gathering

/-- The objects that are registered: `isinstance(handler, BaseEventHandler)` and `str(handler)`. -/
structure Objects (α : Type) where
  isHandler : α → Bool
  text : α → String

variable {α : Type} [DecidableEq α]

/-- `EventRegistry`: the handlers of each event name, a `defaultdict(list)`. -/
structure EventRegistry (α : Type) where
  handlers : String → List α

/-- `EventRegistry()`. -/
def EventRegistry.empty : EventRegistry α := ⟨fun _ => []⟩

/-- `self._handlers[event_name] = handlers`. -/
def EventRegistry.set (r : EventRegistry α) (eventName : String) (handlers : List α) :
    EventRegistry α :=
  ⟨fun name => if name = eventName then handlers else r.handlers name⟩

/-- `EventRegistry.register_handler`. -/
def registerHandler (objects : Objects α) (r : EventRegistry α) (eventName : String) (handler : α) :
    Except Exc (EventRegistry α) :=
  if objects.isHandler handler = false then
    .error (.raised ("Handler " ++ objects.text handler ++ " must implement BaseEventHandler"))
  else if handler ∉ r.handlers eventName then
    .ok (r.set eventName (r.handlers eventName ++ [handler]))
  else .ok r

/-- `EventRegistry.remove_handler`. -/
def removeHandler (r : EventRegistry α) (eventName : String) (handler : α) : EventRegistry α :=
  if handler ∈ r.handlers eventName then
    r.set eventName ((r.handlers eventName).erase handler)
  else r

/-- `EventRegistry.get_handlers`. -/
def getHandlers (r : EventRegistry α) (eventName : String) : List α := r.handlers eventName

/-- A call on the registry. -/
inductive Call (α : Type)
  | register (eventName : String) (handler : α)
  | remove (eventName : String) (handler : α)

/-- The registry after a call; one that raises leaves it as it was. -/
def call (objects : Objects α) (r : EventRegistry α) : Call α → EventRegistry α
  | .register eventName handler =>
    match registerHandler objects r eventName handler with
    | .ok r' => r'
    | .error _ => r
  | .remove eventName handler => removeHandler r eventName handler

/-! ### Dispatching -/

/-- `EventDispatcher._safe_execute`, by what `handle` did: its exception is logged. -/
def safeExecute : Except Exc Unit → Option Exc
  | .ok _ => none
  | .error _ => none

/-- A dispatch under way: the registry, the handlers that the dispatch has read from it, and the
gathering of their tasks. -/
structure Dispatch (α : Type) where
  registry : EventRegistry α
  handlers : List α
  tasks : Gather Exc

/-- What happens during a dispatch: a call on the registry, the task of a handler starts and calls
`handle`, `handle` returns or raises. -/
inductive Event (α : Type)
  | called (c : Call α)
  | started (k : ℕ)
  | handled (k : ℕ) (outcome : Except Exc Unit)

/-- `EventDispatcher.dispatch`, up to where it awaits the tasks; without handlers it returns. -/
def dispatch (r : EventRegistry α) (eventName : String) : Dispatch α :=
  let handlers := getHandlers r eventName
  ⟨r, handlers, gather Exc handlers.length⟩

/-- The dispatch after an event. -/
def advance (objects : Objects α) (d : Dispatch α) : Event α → Dispatch α
  | .called c => { d with registry := call objects d.registry c }
  | .started k => { d with tasks := step d.tasks (.start k) }
  | .handled k outcome => { d with tasks := step d.tasks (.finish k (safeExecute outcome)) }

/-- The handlers whose `handle` has been called, in this order. -/
def Dispatch.invoked (d : Dispatch α) : List α := d.tasks.started.filterMap fun k => d.handlers[k]?

/-! ### The registry -/

/-- The handler has been registered for the name and not been removed since. -/
def Registered (objects : Objects α) (l : List (Call α)) (eventName : String) (h : α) : Prop :=
  objects.isHandler h = true ∧ ∃ before since, l = before ++ .register eventName h :: since ∧
    Call.remove eventName h ∉ since

variable {objects : Objects α} {r : EventRegistry α} {eventName : String} {h : α} {c : Call α}
  {l : List (Call α)}

/-- The registry holds a handler once for each name. -/
def Distinct (r : EventRegistry α) : Prop := ∀ eventName, (r.handlers eventName).Nodup

omit [DecidableEq α] in
theorem mem_set {l : List α} (r : EventRegistry α) (eventName name : String) (h : α) :
    h ∈ (r.set name l).handlers eventName ↔
      if eventName = name then h ∈ l else h ∈ r.handlers eventName := by
  unfold EventRegistry.set
  split_ifs with hname
  · simp [hname]
  · simp [hname]

omit [DecidableEq α] in
theorem distinct_set {l : List α} (name : String) (hr : Distinct r) (hl : l.Nodup) :
    Distinct (r.set name l) := by
  intro eventName
  unfold EventRegistry.set
  dsimp only
  split_ifs
  · exact hl
  · exact hr eventName

theorem call_register (name : String) (g : α) :
    call objects r (.register name g) =
      if objects.isHandler g = true ∧ g ∉ r.handlers name then r.set name (r.handlers name ++ [g])
      else r := by
  simp only [call, registerHandler]
  by_cases hhandler : objects.isHandler g = true
  · by_cases hmem : g ∈ r.handlers name
    · simp [hmem, hhandler]
    · simp [hmem, hhandler]
  · simp [hhandler]

/-- **No call registers a handler twice.** -/
theorem distinct_call (c : Call α) (hr : Distinct r) : Distinct (call objects r c) := by
  cases c with
  | register name g =>
    rw [call_register]
    split_ifs with hnew
    · refine distinct_set name hr ?_
      simpa [List.nodup_append] using ⟨hr name, fun a ha => ne_of_mem_of_not_mem ha hnew.2⟩
    · exact hr
  | remove name g =>
    simp only [call, removeHandler]
    split_ifs with hmem
    · exact distinct_set name hr ((hr name).erase g)
    · exact hr

theorem mem_call_register (name : String) (g : α) :
    h ∈ (call objects r (.register name g)).handlers eventName ↔
      ((name = eventName ∧ g = h) ∧ objects.isHandler h = true) ∨ h ∈ r.handlers eventName := by
  rw [call_register]
  split_ifs with hnew
  · rw [mem_set]
    split_ifs with hname
    · subst hname
      simp only [List.mem_append, List.mem_singleton, true_and]
      constructor
      · rintro (hmem | rfl)
        · exact Or.inr hmem
        · exact Or.inl ⟨rfl, hnew.1⟩
      · rintro (⟨rfl, -⟩ | hmem)
        · exact Or.inr rfl
        · exact Or.inl hmem
    · simp [Ne.symm hname]
  · refine ⟨Or.inr, ?_⟩
    rintro (⟨⟨rfl, rfl⟩, hh⟩ | hmem)
    · by_contra hmem
      exact hnew ⟨hh, hmem⟩
    · exact hmem

theorem mem_call_remove (name : String) (g : α) (hr : Distinct r) :
    h ∈ (call objects r (.remove name g)).handlers eventName ↔
      ¬ (name = eventName ∧ g = h) ∧ h ∈ r.handlers eventName := by
  simp only [call, removeHandler]
  split_ifs with hmem
  · rw [mem_set]
    split_ifs with hname
    · subst hname
      rw [(hr eventName).mem_erase_iff]
      simp [eq_comm]
    · simp [Ne.symm hname]
  · refine ⟨fun hh => ⟨?_, hh⟩, fun hh => hh.2⟩
    rintro ⟨rfl, rfl⟩
    exact hmem hh

theorem mem_call (hr : Distinct r) :
    h ∈ (call objects r c).handlers eventName ↔
      (c = .register eventName h ∧ objects.isHandler h = true) ∨
        (c ≠ .remove eventName h ∧ h ∈ r.handlers eventName) := by
  cases c with
  | register name g => simpa using mem_call_register name g
  | remove name g => simpa using mem_call_remove name g hr

theorem distinct_run (l : List (Call α)) (hr : Distinct r) :
    Distinct (run (call objects) r l) :=
  inv_run (fun _ c => distinct_call c) l hr

omit [DecidableEq α] in
theorem distinct_empty : Distinct (EventRegistry.empty : EventRegistry α) :=
  fun _ => List.nodup_nil

omit [DecidableEq α] in
theorem registered_append :
    Registered objects (l ++ [c]) eventName h ↔
      (c = .register eventName h ∧ objects.isHandler h = true) ∨
        (c ≠ .remove eventName h ∧ Registered objects l eventName h) := by
  constructor
  · rintro ⟨hh, before, since, hl, hsince⟩
    rcases List.eq_nil_or_concat' since with rfl | ⟨since, last, rfl⟩
    · obtain ⟨-, hc⟩ := List.append_inj' hl rfl
      exact Or.inl ⟨List.singleton_inj.mp hc, hh⟩
    · rw [← List.cons_append, ← List.append_assoc] at hl
      obtain ⟨hbefore, hc⟩ := List.append_inj' hl rfl
      obtain rfl := List.singleton_inj.mp hc
      refine Or.inr ⟨fun heq => hsince (by simp [heq]), hh, before, since, hbefore, fun hmem => ?_⟩
      exact hsince (List.mem_append_left _ hmem)
  · rintro (⟨rfl, hh⟩ | ⟨hc, hh, before, since, rfl, hsince⟩)
    · exact ⟨hh, l, [], rfl, by simp⟩
    · refine ⟨hh, before, since ++ [c], by simp, ?_⟩
      simpa [hsince] using Ne.symm hc

/-- **What the registry holds** after any calls: the handlers that were registered and not removed
since. -/
theorem mem_getHandlers_iff (objects : Objects α) (l : List (Call α)) (eventName : String) (h : α) :
    h ∈ getHandlers (run (call objects) .empty l) eventName ↔
      Registered objects l eventName h := by
  induction l using List.reverseRecOn with
  | nil =>
    refine iff_of_false (by simp [getHandlers, EventRegistry.empty]) ?_
    rintro ⟨-, before, since, hl, -⟩
    simp at hl
  | append_singleton l c ih =>
    rw [registered_append, ← ih, run_append]
    exact mem_call (distinct_run l distinct_empty)

/-! ### The handlers -/

variable {d : Dispatch α} {s : List (Event α)}

theorem handlers_run (d : Dispatch α) (s : List (Event α)) :
    (run (advance objects) d s).handlers = d.handlers :=
  rel_run (R := fun d d' : Dispatch α => d'.handlers = d.handlers) (fun _ => rfl)
    (fun h h' => h'.trans h) (fun _ i => by cases i <;> rfl) d s

/-- The step that a task takes. -/
def Event.task : Event α → Option (Step Exc)
  | .called _ => none
  | .started k => some (.start k)
  | .handled k outcome => some (.finish k (safeExecute outcome))

theorem tasks_run (d : Dispatch α) (s : List (Event α)) :
    (run (advance objects) d s).tasks = run step d.tasks (s.filterMap Event.task) := by
  induction s generalizing d with
  | nil => rfl
  | cons i s ih =>
    rw [run_cons, ih]
    cases i <;> rfl

omit [DecidableEq α] in
theorem succeeds_of_task {i : Step Exc} (hi : i ∈ s.filterMap Event.task) : i.Succeeds := by
  obtain ⟨e, -, he⟩ := List.mem_filterMap.mp hi
  cases e with
  | called c => simp [Event.task] at he
  | started k =>
    obtain rfl := Option.some.inj he
    trivial
  | handled k outcome =>
    obtain rfl := Option.some.inj he
    cases outcome <;> rfl

theorem tracked_dispatch (objects : Objects α) (r : EventRegistry α) (eventName : String)
    (s : List (Event α)) :
    Tracked (run (advance objects) (dispatch r eventName) s).tasks := by
  rw [tasks_run]
  exact tracked_run _ _

theorem settled_dispatch (objects : Objects α) (r : EventRegistry α) (eventName : String)
    (s : List (Event α)) :
    Settled (run (advance objects) (dispatch r eventName) s).tasks := by
  rw [tasks_run]
  exact settled_run (fun i hi => succeeds_of_task hi) (settled_gather _)

theorem size_dispatch (objects : Objects α) (r : EventRegistry α) (eventName : String)
    (s : List (Event α)) :
    (run (advance objects) (dispatch r eventName) s).tasks.size =
      (getHandlers r eventName).length := by
  rw [tasks_run, run_size]
  rfl

omit [DecidableEq α] in
theorem mem_invoked_iff (ht : Tracked d.tasks) :
    h ∈ d.invoked ↔
      ∃ k, k < d.tasks.size ∧ d.tasks.phase k ≠ .waiting ∧ d.handlers[k]? = some h := by
  unfold Dispatch.invoked
  simp only [List.mem_filterMap, ht.mem, and_assoc]

omit [DecidableEq α] in
theorem nodup_invoked (ht : Tracked d.tasks) (hd : d.handlers.Nodup) : d.invoked.Nodup := by
  refine ht.nodup.filterMap fun j k h hj hk => ?_
  obtain ⟨hlt, -⟩ := List.getElem?_eq_some_iff.mp hj
  exact (List.getElem?_inj hlt hd).mp (hj.trans hk.symm)

/-- What a dispatch does, by the handlers that are registered: it calls no other, none twice and,
by the time it has returned, each of them; and it does not raise. -/
structure Delivers (registered : α → Prop) (d : Dispatch α) : Prop where
  once : ∀ h, d.invoked.count h ≤ 1
  noOther : ∀ h ∈ d.invoked, registered h
  noRaise : ∀ e, d.tasks.result ≠ some (.error e)
  each : d.tasks.result = some (.ok ()) → ∀ h, registered h → d.invoked.count h = 1

theorem delivers_dispatch (hr : Distinct r) (s : List (Event α)) :
    Delivers (· ∈ getHandlers r eventName) (run (advance objects) (dispatch r eventName) s) := by
  have ht := tracked_dispatch objects r eventName s
  have hsettled := settled_dispatch objects r eventName s
  have hsize := size_dispatch objects r eventName s
  have hhandlers : (run (advance objects) (dispatch r eventName) s).handlers =
      getHandlers r eventName := handlers_run _ s
  generalize run (advance objects) (dispatch r eventName) s = d at *
  have hnodup : d.invoked.Nodup := nodup_invoked ht (by rw [hhandlers]; exact hr eventName)
  refine ⟨fun h => List.nodup_iff_count_le_one.mp hnodup h, fun h hh => ?_, fun e he => ?_,
    fun hresult h hh => ?_⟩
  · obtain ⟨k, -, -, hk⟩ := (mem_invoked_iff ht).mp hh
    rw [← hhandlers]
    exact List.mem_of_getElem? hk
  · by_cases hall : d.tasks.AllDone
    · simp [hsettled.all hall] at he
    · simp [hsettled.rest hall] at he
  · have hall : d.tasks.AllDone := by
      by_contra hall
      simp [hsettled.rest hall] at hresult
    obtain ⟨k, hk⟩ := List.getElem?_of_mem hh
    have hlt : k < d.tasks.size := hsize ▸ (List.getElem?_eq_some_iff.mp hk).1
    refine List.count_eq_one_of_mem hnodup ((mem_invoked_iff ht).mpr ⟨k, hlt, ?_, ?_⟩)
    · simp [hall k hlt]
    · rw [hhandlers]
      exact hk

/-- The dispatch returns once each handler that was registered has been called and has returned or
raised. -/
theorem returns_of_handled (r : EventRegistry α) (eventName : String) (s : List (Event α))
    (hs : ∀ k < (getHandlers r eventName).length,
      ∃ outcome, List.Sublist [.started k, .handled k outcome] s) :
    (run (advance objects) (dispatch r eventName) s).tasks.result = some (.ok ()) := by
  refine (settled_dispatch _ r eventName s).all ?_
  rw [tasks_run]
  refine allDone_of_sublist fun k hk => ?_
  obtain ⟨outcome, hsub⟩ := hs k hk
  exact ⟨safeExecute outcome, hsub.filterMap Event.task⟩

/-- **Events reach every registered handler once**, after any calls on the registry, whichever of
the handlers raise, and in whatever order they start and finish. -/
theorem delivers_once (objects : Objects α) (l : List (Call α)) (eventName : String)
    (s : List (Event α)) :
    let r := run (call objects) .empty l
    Delivers (Registered objects l eventName) (run (advance objects) (dispatch r eventName) s) ∧
      ((∀ k < (getHandlers r eventName).length,
        ∃ outcome, List.Sublist [.started k, .handled k outcome] s) →
          (run (advance objects) (dispatch r eventName) s).tasks.result = some (.ok ())) := by
  intro r
  have hdelivers : Delivers (· ∈ getHandlers r eventName)
      (run (advance objects) (dispatch r eventName) s) :=
    delivers_dispatch (distinct_run l distinct_empty) s
  refine ⟨⟨hdelivers.once, fun h hh => ?_, hdelivers.noRaise, fun hresult h hh => ?_⟩,
    returns_of_handled r eventName s⟩
  · exact (mem_getHandlers_iff objects l eventName h).mp (hdelivers.noOther h hh)
  · exact hdelivers.each hresult h ((mem_getHandlers_iff objects l eventName h).mpr hh)

/-- Every text is a handler. -/
def texts : Objects String := ⟨fun _ => true, id⟩

/-- Two handlers, one of them registered twice; the other one is done first, and raises. -/
theorem delivers_once_two :
    let r := run (call texts) .empty
      [.register "user.created" "mail", .register "user.created" "audit",
        .register "user.created" "mail"]
    let d := run (advance texts) (dispatch r "user.created")
      [.started 0, .started 1, .handled 1 (.error (.raised "Intentional Failure")),
        .handled 0 (.ok ())]
    d.tasks.result = some (.ok ()) ∧ d.invoked.count "mail" ≤ 1 := by
  have h := delivers_once texts
    [.register "user.created" "mail", .register "user.created" "audit",
      .register "user.created" "mail"] "user.created"
    [.started 0, .started 1, .handled 1 (.error (.raised "Intentional Failure")),
      .handled 0 (.ok ())]
  refine ⟨h.2 fun k hk => ?_, h.1.once "mail"⟩
  have htwo : k < 2 := hk
  obtain rfl | rfl : k = 0 ∨ k = 1 := by omega
  · exact ⟨.ok (), by simp⟩
  · exact ⟨.error (.raised "Intentional Failure"), by simp⟩

end MarketingSuite.Events.Dispatcher
