import MarketingSuite.Repositories.Base
import MarketingSuite.Lib.Runs
import Mathlib.Data.List.Sort

/-! # Announcements

`app/operations/announcements`. An announcement may have a start and an end. The query compares them
with the clock in SQL, where a comparison with null is neither true nor false; its tests for null are
Python's, and are made before there is a row. -/

namespace MarketingSuite.Announcements.Service

open MarketingSuite.Lib.Programs MarketingSuite.Lib.Tables MarketingSuite.Lib.Runs
open MarketingSuite.Base.Values MarketingSuite.Repositories.Base

/-- `SystemAnnouncement`. -/
structure SystemAnnouncement where
  id : Uuid
  title : String
  message : String
  type : String
  priority : ℤ
  startsAt : Option Time
  expiresAt : Option Time
  dismissible : Bool
  isActive : Bool
  createdAt : Time
deriving DecidableEq, Repr

instance : Keyed SystemAnnouncement Uuid where
  key := SystemAnnouncement.id
  compatible _ _ := true
  symm _ _ := rfl

/-- A service over the announcements. -/
abbrev AnnouncementSvc (α : Type) : Type := Prog (Table SystemAnnouncement) Exc α

/-! ### Conditions of a query -/

/-- A truth value of SQL; `none` is unknown. -/
abbrev Truth : Type := Option Bool

/-- `a <= b`, unknown if one of them is null. -/
def sqlLe (a b : Option Time) : Truth :=
  match a, b with
  | some x, some y => some (x ≤ y)
  | _, _ => none

/-- `OR`. -/
def sqlOr : Truth → Truth → Truth
  | some true, _ => some true
  | _, some true => some true
  | some false, some false => some false
  | _, _ => none

/-- `AND`. -/
def sqlAnd : Truth → Truth → Truth
  | some false, _ => some false
  | _, some false => some false
  | some true, some true => some true
  | _, _ => none

/-- Python's `is None` on a mapped attribute of a class, while a query is built: the attribute is an
object, so it is `False`, whatever the rows hold. -/
def isNoneAttribute {α : Type} (_attribute : SystemAnnouncement → Option α) : Truth := some false

/-- The condition of `get_active_announcements`. -/
def isSelected (now : Time) (a : SystemAnnouncement) : Truth :=
  sqlAnd (some a.isActive)
    (sqlAnd
      (sqlOr (isNoneAttribute SystemAnnouncement.startsAt) (sqlLe a.startsAt (some now)))
      (sqlOr (isNoneAttribute SystemAnnouncement.expiresAt) (sqlLe (some now) a.expiresAt)))

/-- `priority.desc(), created_at.desc()`. -/
def Precedes (a b : SystemAnnouncement) : Prop :=
  b.priority < a.priority ∨ b.priority = a.priority ∧ b.createdAt ≤ a.createdAt

instance (a b : SystemAnnouncement) : Decidable (Precedes a b) := by
  unfold Precedes
  infer_instance

/-- `AnnouncementService.get_active_announcements`. -/
def getActiveAnnouncements (now : Time) : AnnouncementSvc (List SystemAnnouncement) :=
  Prog.gets fun T => (T.select fun a => isSelected now a = some true).insertionSort Precedes

/-- The row of a new announcement. -/
def announcementOf (d : Draws) (title message type : String) (priority : ℤ) :
    SystemAnnouncement where
  id := d.uuid 0
  title := title
  message := message
  type := type
  priority := priority
  startsAt := none
  expiresAt := none
  dismissible := true
  isActive := true
  createdAt := d.now 0

/-- `AnnouncementService.create_announcement`; the column of the priority has 32 bits. -/
def createAnnouncement (d : Draws) (title message : String) (type : String := "info")
    (priority : ℤ := 0) : AnnouncementSvc SystemAnnouncement := do
  let announcement := announcementOf d title message type priority
  Prog.require (-2147483648 ≤ priority ∧ priority ≤ 2147483647) .dataError
  let T ← Prog.gets fun T => T
  let T' ← orRaise (T.insert announcement) .integrity
  Prog.modify fun _ => T'
  pure announcement

/-! ### Announcements over time -/

/-- What happens: an announcement is created, another one is entered into the table, one is
deactivated, and somebody asks for the active ones. -/
inductive Event
  | create (d : Draws) (title message type : String) (priority : ℤ)
  | enter (a : SystemAnnouncement)
  | deactivate (id : Uuid)
  | query (now : Time)

/-- The table, and the announcements that `create_announcement` made and nobody has deactivated. -/
structure State where
  table : Table SystemAnnouncement
  made : List Uuid

/-- The table after a row is deactivated. -/
def deactivated (T : Table SystemAnnouncement) (id : Uuid) : Table SystemAnnouncement :=
  (T.modify id fun a => { a with isActive := false }).getD T

/-- The state after an event. -/
def step (s : State) : Event → State
  | .create d title message type priority =>
    match createAnnouncement d title message type priority s.table with
    | (.ok a, T) => ⟨T, a.id :: s.made⟩
    | (.error _, T) => ⟨T, s.made⟩
  | .enter a => { s with table := (s.table.insert a).getD s.table }
  | .deactivate id => ⟨deactivated s.table id, s.made.filter (· ≠ id)⟩
  | .query _ => s

/-- An announcement that users are to see: it is active, and now lies in its window. -/
def Current (now : Time) (a : SystemAnnouncement) : Prop :=
  a.isActive = true ∧ (∀ t, a.startsAt = some t → t ≤ now) ∧ ∀ t, a.expiresAt = some t → now ≤ t

instance (now : Time) (a : SystemAnnouncement) : Decidable (Current now a) := by
  unfold Current
  infer_instance

/-- The answer to a query is the current announcements in their order, and among them all those that
were made and not deactivated. -/
structure AnswersWell (s : State) (now : Time) : Prop where
  exactly : ∀ l, (getActiveAnnouncements now).Returns s.table l s.table →
    l.Perm (s.table.select fun a => Current now a) ∧ l.Pairwise Precedes
  shown : ∀ l, (getActiveAnnouncements now).Returns s.table l s.table →
    ∀ id ∈ s.made, ∃ a ∈ l, a.id = id

/-- Every query of the run is answered well. -/
def QueriesWell (s : State) (e : Event) : Prop :=
  match e with
  | .query now => AnswersWell s now
  | _ => True

/-- No current announcement lacks a start or an end, at a query. -/
def QueriesBounded (s : State) (e : Event) : Prop :=
  match e with
  | .query now => ∀ a ∈ s.table.rows, Current now a →
      a.startsAt.isSome = true ∧ a.expiresAt.isSome = true
  | _ => True

variable {T T' : Table SystemAnnouncement} {a : SystemAnnouncement} {now : Time} {s : State}

/-! ### What a query finds -/

theorem sqlAnd_eq_true {p q : Truth} :
    sqlAnd p q = some true ↔ p = some true ∧ q = some true := by
  rcases p with _ | _ | _ <;> rcases q with _ | _ | _ <;> decide

theorem false_or_eq_true {q : Truth} : sqlOr (some false) q = some true ↔ q = some true := by
  rcases q with _ | _ | _ <;> decide

theorem sqlLe_eq_true {x y : Option Time} :
    sqlLe x y = some true ↔ ∃ t u, x = some t ∧ y = some u ∧ t ≤ u := by
  cases x <;> cases y <;> simp [sqlLe]

/-- **What the query selects**: the current announcements that have a start and an end. -/
theorem isSelected_iff :
    isSelected now a = some true ↔
      Current now a ∧ a.startsAt.isSome = true ∧ a.expiresAt.isSome = true := by
  unfold isSelected isNoneAttribute Current
  rw [sqlAnd_eq_true, sqlAnd_eq_true, false_or_eq_true, false_or_eq_true, sqlLe_eq_true,
    sqlLe_eq_true]
  cases a.startsAt <;> cases a.expiresAt <;> simp

theorem precedes_total (a b : SystemAnnouncement) : Precedes a b ∨ Precedes b a := by
  rcases lt_trichotomy a.priority b.priority with hlt | heq | hgt
  · exact Or.inr (Or.inl hlt)
  · rcases le_total a.createdAt b.createdAt with hle | hle
    · exact Or.inr (Or.inr ⟨heq, hle⟩)
    · exact Or.inl (Or.inr ⟨heq.symm, hle⟩)
  · exact Or.inl (Or.inl hgt)

theorem precedes_trans {a b c : SystemAnnouncement} (hab : Precedes a b) (hbc : Precedes b c) :
    Precedes a c := by
  rcases hab with hab | ⟨hab, habt⟩
  · rcases hbc with hbc | ⟨hbc, -⟩
    · exact Or.inl (hbc.trans hab)
    · exact Or.inl (hbc ▸ hab)
  · rcases hbc with hbc | ⟨hbc, hbct⟩
    · exact Or.inl (hab ▸ hbc)
    · exact Or.inr ⟨hbc.trans hab, hbct.trans habt⟩

theorem precedes_sort (l : List SystemAnnouncement) :
    (l.insertionSort Precedes).Pairwise Precedes := by
  have htotal : Std.Total Precedes := ⟨precedes_total⟩
  have htrans : IsTrans SystemAnnouncement Precedes := ⟨fun _ _ _ => precedes_trans⟩
  exact List.pairwise_insertionSort _ l

/-- The listing is exact if and only if every current announcement has a start and an end. -/
theorem exactly_iff :
    (∀ l, (getActiveAnnouncements now).Returns T l T →
      l.Perm (T.select fun a => Current now a) ∧ l.Pairwise Precedes) ↔
      ∀ a ∈ T.rows, Current now a → a.startsAt.isSome = true ∧ a.expiresAt.isSome = true := by
  constructor
  · intro h a ha hcurrent
    have hperm := (h _ (Prog.returns_gets.mpr ⟨rfl, rfl⟩)).1
    have hmem : a ∈ T.select fun a => Current now a := by
      simpa using ⟨ha, hcurrent⟩
    rw [← hperm.mem_iff, List.mem_insertionSort, Table.mem_select] at hmem
    exact (isSelected_iff.mp (by simpa using hmem.2)).2
  · intro h l hl
    obtain ⟨rfl, -⟩ := Prog.returns_gets.mp hl
    have hsame : (T.select fun a => isSelected now a = some true) =
        T.select fun a => Current now a := by
      refine List.filter_congr fun a ha => ?_
      rw [decide_eq_decide, isSelected_iff]
      exact ⟨fun h => h.1, fun hcurrent => ⟨hcurrent, h a ha hcurrent⟩⟩
    rw [hsame]
    exact ⟨List.perm_insertionSort _ _, precedes_sort _⟩

/-! ### What was made is in the table -/

/-- What `create_announcement` made and nobody has deactivated is active, without a start and an end.
-/
def Unbounded (s : State) : Prop :=
  ∀ id ∈ s.made, ∃ a ∈ s.table.rows, a.id = id ∧ a.isActive = true ∧ a.startsAt = none ∧
    a.expiresAt = none

theorem unbounded_of_keeps {made : List Uuid} (hs : Unbounded s) (hmade : ∀ id ∈ made, id ∈ s.made)
    (hkeep : ∀ a ∈ s.table.rows, a.id ∈ made → a ∈ T.rows) : Unbounded ⟨T, made⟩ := by
  intro id hid
  obtain ⟨a, ha, rfl, hrest⟩ := hs id (hmade id hid)
  exact ⟨a, hkeep a ha hid, rfl, hrest⟩

theorem step_create (s : State) (d : Draws) (title message type : String) (priority : ℤ) :
    step s (.create d title message type priority) = s ∨
      ∃ T, s.table.insert (announcementOf d title message type priority) = some T ∧
        step s (.create d title message type priority) = ⟨T, d.uuid 0 :: s.made⟩ := by
  unfold step createAnnouncement
  by_cases hrange : -2147483648 ≤ priority ∧ priority ≤ 2147483647
  · cases hins : s.table.insert (announcementOf d title message type priority) with
    | none =>
      left
      simp [hrange, hins, Prog.require, Prog.gets, orRaise, Prog.raise, bind, pure]
    | some T =>
      refine Or.inr ⟨T, rfl, ?_⟩
      simp [hrange, hins, Prog.require, Prog.gets, orRaise, Prog.modify, bind, pure]
      rfl
  · left
    simp [hrange, Prog.require, Prog.raise, bind]

theorem unbounded_step (s : State) (e : Event) (hs : Unbounded s) : Unbounded (step s e) := by
  cases e with
  | create d title message type priority =>
    rcases step_create s d title message type priority with heq | ⟨T, hins, heq⟩
    · rw [heq]
      exact hs
    · rw [heq]
      intro id hid
      rcases List.mem_cons.mp hid with rfl | hid
      · exact ⟨_, Table.mem_insert_self hins, rfl, rfl, rfl, rfl⟩
      · obtain ⟨a, ha, hrest⟩ := hs id hid
        exact ⟨a, (Table.mem_insert hins).mpr (Or.inl ha), hrest⟩
  | enter b =>
    refine unbounded_of_keeps hs (fun _ h => h) fun a ha _ => ?_
    cases hins : s.table.insert b with
    | none => exact ha
    | some T => exact (Table.mem_insert hins).mpr (Or.inl ha)
  | deactivate id =>
    refine unbounded_of_keeps hs (fun _ h => (List.mem_filter.mp h).1) fun a ha hid => ?_
    have hne : a.id ≠ id := by simpa using (List.mem_filter.mp hid).2
    unfold deactivated
    cases hmod : s.table.modify id fun a => { a with isActive := false } with
    | none => exact ha
    | some T => exact Table.mem_modify_of_ne hmod ha hne
  | query now => exact hs

/-- **Active announcements are those in their window**, at every query of a run, exactly if no
current announcement lacks a start or an end then. -/
theorem queriesWell_iff {s : State} (hs : s.made = []) (l : List Event) :
    Along step QueriesWell s l ↔ Along step QueriesBounded s l := by
  refine along_congr unbounded_step (fun s e hs => ?_) (fun id hid => ?_)
  · cases e with
    | query now =>
      refine ⟨fun h => exactly_iff.mp h.exactly, fun h => ⟨exactly_iff.mpr h, fun l hl id hid => ?_⟩⟩
      obtain ⟨a, ha, -, hactive, hstart, hend⟩ := hs id hid
      have hcurrent : Current now a := ⟨hactive, by simp [hstart], by simp [hend]⟩
      have hbounds := h a ha hcurrent
      simp [hstart] at hbounds
    | _ => exact Iff.rfl
  · simp [hs] at hid

instance (s : State) (e : Event) : Decidable (QueriesBounded s e) := by
  unfold QueriesBounded
  cases e <;> infer_instance

/-- An installation without announcements. -/
def quiet : State := ⟨.empty, []⟩

/-- An announcement with a start and an end. -/
def maintenance : SystemAnnouncement :=
  ⟨7, "Maintenance", "Back at noon", "warning", 1, some 0, some 9, true, true, 0⟩

theorem maintenance_shown :
    Along step QueriesWell quiet [.enter maintenance, .query 5, .deactivate 7, .query 6] :=
  (queriesWell_iff rfl _).mpr (by decide)

/-- **A new announcement is not shown.** -/
theorem new_announcement_hidden :
    ¬ Along step QueriesWell quiet
      [.create (drawsFrom 1 0 "") "Welcome" "Hello" "info" 0, .query 5] := by
  rintro ⟨-, h, -⟩
  have hanswer : (getActiveAnnouncements 5).Returns
      (step quiet (.create (drawsFrom 1 0 "") "Welcome" "Hello" "info" 0)).table []
      (step quiet (.create (drawsFrom 1 0 "") "Welcome" "Hello" "info" 0)).table :=
    Prog.returns_gets.mpr ⟨by decide, rfl⟩
  obtain ⟨a, ha, -⟩ := h.shown [] hanswer 1 (by decide)
  simp at ha

end MarketingSuite.Announcements.Service
