import MarketingSuite.Base.Encoding
import MarketingSuite.Plans.Service
import MarketingSuite.Repositories.Answers
import MarketingSuite.Repositories.Records
import MarketingSuite.Workspaces.Repositories

/-! # Updating a workspace

`update_workspace` of `app/services/workspace.py`. The row is changed first, and then the audit log
gets the dictionary of the body and the old attributes under the same keys, as they are: the
identifiers of a plan and of a user among them, which the encoder does not take. -/

namespace MarketingSuite.Workspaces.Updates

open MarketingSuite.Lib.Programs MarketingSuite.Lib.Tables
open MarketingSuite.Base.Values MarketingSuite.Base.Models MarketingSuite.Base.Schema
open MarketingSuite.Base.Encoding MarketingSuite.Repositories.Base
open MarketingSuite.Repositories.Records MarketingSuite.Repositories.Answers
open MarketingSuite.Workspaces.Repositories
open MarketingSuite.Plans.Service (Plan)

/-- The database with the plans, and the column `updated_by` of the workspaces. -/
structure Store where
  db : Database
  plans : Table Plan
  updatedBy : Uuid → Option Uuid

/-- A service over the store. -/
abbrev StoreSvc (α : Type) : Type := Prog Store Exc α

/-- A service over the database. -/
def onDb {α : Type} (p : Svc α) : StoreSvc α :=
  Prog.focus Store.db (fun s db => { s with db := db }) p

/-- `WorkspaceUpdate`. -/
structure WorkspaceUpdate where
  name : PatchField String := none
  slug : PatchField String := none
  logoUrl : PatchField String := none
  timezone : PatchField String := none
  industry : PatchField String := none
  country : PatchField String := none
  defaultLanguage : PatchField String := none
  status : PatchField WorkspaceStatus := none
  planId : PatchField Uuid := none
  updatedBy : PatchField Uuid := none

/-- `WorkspaceStatus.value`. -/
def statusValue : WorkspaceStatus → String
  | .active => "ACTIVE"
  | .suspended => "SUSPENDED"
  | .archived => "ARCHIVED"
  | .trial => "TRIAL"

/-- `data.model_dump(exclude_unset=True)`. -/
def WorkspaceUpdate.dump (data : WorkspaceUpdate) : Values :=
  field "name" .str data.name ++ field "slug" .str data.slug ++
    field "logo_url" .str data.logoUrl ++ field "timezone" .str data.timezone ++
    field "industry" .str data.industry ++ field "country" .str data.country ++
    field "default_language" .str data.defaultLanguage ++
    field "status" (fun st => .enum (statusValue st)) data.status ++
    field "plan_id" .uuid data.planId ++ field "updated_by" .uuid data.updatedBy

/-- A value, or null. -/
def nullable {α : Type} (value : α → Value) : Option α → Value
  | none => .none
  | some a => value a

/-- `getattr(workspace, key)`. -/
def getAttr (w : Workspace) (updatedBy : Option Uuid) : String → Value
  | "name" => .str w.name
  | "slug" => .str w.slug
  | "logo_url" => nullable .str w.logoUrl
  | "timezone" => .str w.timezone
  | "industry" => nullable .str w.industry
  | "country" => nullable .str w.country
  | "default_language" => .str w.defaultLanguage
  | "status" => .enum (statusValue w.status)
  | "plan_id" => nullable .uuid w.planId
  | "updated_by" => nullable .uuid updatedBy
  | _ => .none

/-- `{k: getattr(workspace, k) for k in update_data.keys()}`. -/
def oldValues (w : Workspace) (updatedBy : Option Uuid) (data : WorkspaceUpdate) : Values :=
  data.dump.map fun p => (p.1, getAttr w updatedBy p.1)

/-- The request sets no NOT NULL column to null. -/
def WorkspaceUpdate.storable (data : WorkspaceUpdate) : Prop :=
  data.name ≠ some none ∧ data.slug ≠ some none ∧ data.timezone ≠ some none ∧
    data.defaultLanguage ≠ some none ∧ data.status ≠ some none

instance (data : WorkspaceUpdate) : Decidable data.storable := by
  unfold WorkspaceUpdate.storable
  infer_instance

/-- The plan and the user that the request names exist. -/
def WorkspaceUpdate.linked (data : WorkspaceUpdate) (s : Store) : Bool :=
  data.planId.join.all s.plans.has && data.updatedBy.join.all s.db.users.has

/-- The fields of a workspace that the dictionary sets. -/
def patch (data : WorkspaceUpdate) (w : Workspace) : Workspace :=
  { w with
    name := (data.name.getD (some w.name)).getD w.name
    slug := (data.slug.getD (some w.slug)).getD w.slug
    logoUrl := data.logoUrl.getD w.logoUrl
    timezone := (data.timezone.getD (some w.timezone)).getD w.timezone
    industry := data.industry.getD w.industry
    country := data.country.getD w.country
    defaultLanguage := (data.defaultLanguage.getD (some w.defaultLanguage)).getD w.defaultLanguage
    status := (data.status.getD (some w.status)).getD w.status
    planId := data.planId.getD w.planId }

/-- "Workspace slug already exists."; `slug IS NULL` holds of no row. -/
def checkSlug (workspace : Workspace) : PatchField String → Svc Unit
  | none => pure ()
  | some none => pure ()
  | some (some slug) =>
    if slug = workspace.slug then pure () else do
      let existing ← getBySlug slug true
      Prog.require (existing.isNone = true) (.http 400 "Workspace slug already exists.")

/-- `workspace_repo.update`. -/
def updateRow (workspaceId : Uuid) (data : WorkspaceUpdate) : StoreSvc Workspace := do
  -- a null breaks the NOT NULL of its column
  Prog.require data.storable .integrity
  let s ← Prog.gets fun s => s
  Prog.require (data.linked s = true) .integrity
  let updated ← onDb (update workspaceId (patch data))
  Prog.modify fun s => { s with updatedBy := fun i =>
    if i = workspaceId then data.updatedBy.getD (s.updatedBy i) else s.updatedBy i }
  pure updated

/-- The row that was changed, and the attributes that it had. -/
structure Change where
  updated : Workspace
  oldValues : Values

/-- `update_workspace`, up to the change of the row; `none` where there is nothing to change. -/
def change (workspace : Workspace) (data : WorkspaceUpdate) : StoreSvc (Option Change) :=
  if data.dump.isEmpty = true then pure none else do
    onDb (checkSlug workspace data.slug)
    let s ← Prog.gets fun s => s
    let updated ← updateRow workspace.id data
    pure (some ⟨updated, oldValues workspace (s.updatedBy workspace.id) data⟩)

/-- The call of `create_audit_log`, which encodes the dictionaries. -/
def auditUpdate (d : Draws) (user : User) (workspaceId : Uuid) (old new : Values) :
    StoreSvc Unit := do
  let old ← orRaise (encodeDict old) .typeError
  let new ← orRaise (encodeDict new) .typeError
  onDb (createAuditLog
    { workspaceId := some workspaceId, actorId := some user.id, action := "UPDATE",
      resourceType := "workspace", resourceId := workspaceId, oldValues := some old,
      newValues := some new, timestamp := d.now 0 })

/-- `WorkspaceService.update_workspace`. -/
def updateWorkspace (d : Draws) (user : User) (workspace : Workspace) (data : WorkspaceUpdate) :
    StoreSvc Workspace := do
  let changed ← change workspace data
  match changed with
  | none => pure workspace
  | some c => do
    auditUpdate d user workspace.id c.oldValues data.dump
    pure c.updated

/-! ### What is encoded -/

variable {s t : Store} {d : Draws} {user : User} {w : Workspace} {data : WorkspaceUpdate}

/-- An identifier is among the new or the old values. -/
def RawIds (s : Store) (w : Workspace) (data : WorkspaceUpdate) : Prop :=
  (∃ p, data.planId = some p ∧ (p ≠ none ∨ w.planId ≠ none)) ∨
    ∃ v, data.updatedBy = some v ∧ (v ≠ none ∨ s.updatedBy w.id ≠ none)

/-- The encoder takes the dictionary, and the attributes under its keys. -/
def Taken (attr : String → Value) (l : Values) : Prop :=
  Serializable l ∧ Serializable (l.map fun p => (p.1, attr p.1))

section Taken

variable {attr : String → Value} {key : String}

theorem taken_append {l l' : Values} : Taken attr (l ++ l') ↔ Taken attr l ∧ Taken attr l' := by
  unfold Taken
  rw [List.map_append, serializable_append, serializable_append]
  tauto

theorem taken_field {α : Type} {value : α → Value} {p : PatchField α}
    (hvalue : ∀ a, (encode (value a)).isSome = true) (hattr : (encode (attr key)).isSome = true) :
    Taken attr (field key value p) := by
  refine ⟨serializable_field hvalue, ?_⟩
  rcases p with _ | _ | a <;> simp [field, Serializable, hattr]

theorem taken_uuid {p : PatchField Uuid} {old : Option Uuid}
    (hattr : attr key = nullable .uuid old) :
    Taken attr (field key .uuid p) ↔ ¬ ∃ v, p = some v ∧ (v ≠ none ∨ old ≠ none) := by
  rcases p with _ | _ | i
  · simp [Taken, field, Serializable]
  · rcases old with _ | o <;> simp [Taken, field, Serializable, encode, hattr, nullable]
  · simp [Taken, field, Serializable, encode]

end Taken

theorem encode_nullable (o : Option String) : (encode (nullable .str o)).isSome = true := by
  rcases o with _ | a <;> rfl

/-- **The dictionaries of an update** can be encoded exactly if no identifier is among them. -/
theorem taken_dump_iff : Taken (getAttr w (s.updatedBy w.id)) data.dump ↔ ¬ RawIds s w data := by
  have htext {key : String} {p : PatchField String}
      (h : (encode (getAttr w (s.updatedBy w.id) key)).isSome = true) :
      Taken (getAttr w (s.updatedBy w.id)) (field key .str p) := taken_field (fun _ => rfl) h
  have hplan : Taken (getAttr w (s.updatedBy w.id)) (field "plan_id" .uuid data.planId) ↔
      ¬ ∃ v, data.planId = some v ∧ (v ≠ none ∨ w.planId ≠ none) := taken_uuid rfl
  have huser : Taken (getAttr w (s.updatedBy w.id)) (field "updated_by" .uuid data.updatedBy) ↔
      ¬ ∃ v, data.updatedBy = some v ∧ (v ≠ none ∨ s.updatedBy w.id ≠ none) := taken_uuid rfl
  rw [RawIds, not_or, ← hplan, ← huser, WorkspaceUpdate.dump]
  simp only [taken_append, and_assoc]
  constructor
  · rintro ⟨-, -, -, -, -, -, -, -, hp, hu⟩
    exact ⟨hp, hu⟩
  · rintro ⟨hp, hu⟩
    exact ⟨htext rfl, htext rfl, htext (encode_nullable _), htext rfl, htext (encode_nullable _),
      htext (encode_nullable _), htext rfl, taken_field (fun _ => rfl) rfl, hp, hu⟩

/-! ### What an update does -/

/-- The new slug is the old one, or that of no workspace, deleted or not. -/
def SlugFree (s : Store) (w : Workspace) (data : WorkspaceUpdate) : Prop :=
  ∀ slug, data.slug = some (some slug) → slug ≠ w.slug → ∀ v ∈ s.db.workspaces.rows, v.slug ≠ slug

/-- The changes of the row that the database accepts. -/
structure Accepts (s : Store) (w : Workspace) (data : WorkspaceUpdate) : Prop where
  storable : data.storable
  linked : data.linked s = true
  references : Model.references s.db (patch data w) = true

/-- The store with the changed row. -/
def Changed (w : Workspace) (data : WorkspaceUpdate) (s t : Store) : Prop :=
  ∃ T, s.db.workspaces.modify w.id (patch data) = some T ∧
    t = { s with
      db := { s.db with workspaces := T }
      updatedBy := fun i => if i = w.id then data.updatedBy.getD (s.updatedBy i) else s.updatedBy i }

theorem slugFree_of_join (h : data.slug.join = none) : SlugFree s w data := by
  intro slug hslug
  rw [hslug] at h
  exact absurd h (by simp)

theorem checkSlug_cases (s : Store) (w : Workspace) (data : WorkspaceUpdate) :
    (SlugFree s w data ∧ (onDb (checkSlug w data.slug)).Returns s () s) ∨
      ¬ SlugFree s w data ∧ (onDb (checkSlug w data.slug)).Raises s
        (.http 400 "Workspace slug already exists.") s := by
  have hpass : (onDb (pure ())).Returns s () s :=
    Prog.returns_focus.mpr ⟨s.db, Prog.returns_pure.mpr ⟨rfl, rfl⟩, rfl⟩
  rcases hslug : data.slug with _ | _ | slug
  · exact Or.inl ⟨slugFree_of_join (by rw [hslug]; rfl), hpass⟩
  · exact Or.inl ⟨slugFree_of_join (by rw [hslug]; rfl), hpass⟩
  · have hfree : SlugFree s w data ↔
        (slug ≠ w.slug → ∀ v ∈ s.db.workspaces.rows, v.slug ≠ slug) := by
      refine ⟨fun h => h slug hslug, fun h x hx => ?_⟩
      obtain rfl := Option.some.inj (Option.some.inj (hx.symm.trans hslug))
      exact h
    rw [hfree]
    by_cases hsame : slug = w.slug
    · rw [checkSlug, if_pos hsame]
      exact Or.inl ⟨fun hne => absurd hsame hne, hpass⟩
    · by_cases htaken : ∃ v ∈ s.db.workspaces.rows, v.slug = slug
      · obtain ⟨v, hv, hvs⟩ := htaken
        have hget : (getBySlug slug true).Returns s.db (some v) s.db := by
          refine returns_selectOne_some hv (by simp [hvs]) fun q hq hp => ?_
          simp only [Bool.true_or, Bool.and_true, decide_eq_true_eq] at hp
          exact s.db.workspaces.eq_of_not_compatible hq hv (by simp [Keyed.compatible, hp, hvs])
        refine Or.inr ⟨fun h => h hsame v hv hvs, Prog.raises_focus.mpr ⟨s.db, ?_, rfl⟩⟩
        rw [checkSlug, if_neg hsame]
        exact (Prog.raises_bind_of_returns hget).mpr
          (Prog.raises_require.mpr ⟨Bool.false_ne_true, rfl, rfl⟩)
      · have hget : (getBySlug slug true).Returns s.db none s.db := by
          refine returns_selectOne_none fun q hq hp => htaken ⟨q, hq, ?_⟩
          simpa using hp
        refine Or.inl ⟨fun _ v hv hvs => htaken ⟨v, hv, hvs⟩, Prog.returns_focus.mpr ⟨s.db, ?_, rfl⟩⟩
        rw [checkSlug, if_neg hsame]
        exact Prog.returns_bind.mpr ⟨none, s.db, hget, Prog.returns_require.mpr ⟨rfl, rfl⟩⟩

theorem exists_modify_of_slugFree (hw : w ∈ s.db.workspaces.rows) (h : SlugFree s w data) :
    ∃ T, s.db.workspaces.modify w.id (patch data) = some T := by
  refine (Table.exists_modify_iff (f := patch data) hw rfl fun _ => rfl).mpr fun q hq hne => ?_
  have hold : w.slug ≠ q.slug := by
    have hapart := (s.db.workspaces.apart_of_mem hw hq hne.symm).2
    simpa [Keyed.compatible] using hapart
  have hnew : (patch data w).slug ≠ q.slug := by
    rcases hslug : data.slug with _ | _ | slug
    · simpa [patch, hslug] using hold
    · simpa [patch, hslug] using hold
    · have heq : (patch data w).slug = slug := by simp [patch, hslug]
      rw [heq]
      by_cases hsame : slug = w.slug
      · rw [hsame]
        exact hold
      · exact (h slug hslug hsame q hq).symm
  simpa [Keyed.compatible] using hnew

theorem updateRow_returns (hw : w ∈ s.db.workspaces.rows) (hacc : Accepts s w data)
    (hch : Changed w data s t) : (updateRow w.id data).Returns s (patch data w) t := by
  obtain ⟨T, hT, rfl⟩ := hch
  have hupd : (onDb (update w.id (patch data))).Returns s (patch data w)
      { s with db := { s.db with workspaces := T } } :=
    Prog.returns_focus.mpr ⟨_, returns_update.mpr ⟨w, hw, rfl, rfl, hacc.references, T, hT, rfl⟩, rfl⟩
  refine Prog.returns_bind.mpr ⟨(), s, Prog.returns_require.mpr ⟨hacc.storable, rfl⟩, ?_⟩
  refine Prog.returns_bind.mpr ⟨s, s, Prog.returns_gets.mpr ⟨rfl, rfl⟩, ?_⟩
  refine Prog.returns_bind.mpr ⟨(), s, Prog.returns_require.mpr ⟨hacc.linked, rfl⟩, ?_⟩
  refine Prog.returns_bind.mpr ⟨_, _, hupd, ?_⟩
  exact Prog.returns_bind.mpr ⟨(), _, Prog.returns_modify.mpr rfl, Prog.returns_pure.mpr ⟨rfl, rfl⟩⟩

theorem updateRow_raises (hw : w ∈ s.db.workspaces.rows) (hacc : ¬ Accepts s w data) :
    (updateRow w.id data).Raises s .integrity s := by
  unfold updateRow
  by_cases hstore : data.storable
  · rw [Prog.raises_bind_of_pass hstore,
      Prog.raises_bind_of_returns (Prog.returns_gets.mpr ⟨rfl, rfl⟩)]
    by_cases hlink : data.linked s = true
    · rw [Prog.raises_bind_of_pass hlink]
      have href : Model.references s.db (patch data w) = false :=
        Bool.eq_false_of_not_eq_true fun href => hacc ⟨hstore, hlink, href⟩
      have hupd : (onDb (update w.id (patch data))).Raises s .integrity s :=
        Prog.raises_focus.mpr ⟨s.db, raises_update hw rfl (Or.inl href), rfl⟩
      exact (Prog.raises_bind_of_raises hupd).mpr ⟨rfl, rfl⟩
    · exact (Prog.raises_bind_of_raises (Prog.raises_require.mpr ⟨hlink, rfl, rfl⟩)).mpr ⟨rfl, rfl⟩
  · exact (Prog.raises_bind_of_raises (Prog.raises_require.mpr ⟨hstore, rfl, rfl⟩)).mpr ⟨rfl, rfl⟩

theorem auditUpdate_returns {i : Uuid} {old new : Values} (hold : Serializable old)
    (hnew : Serializable new) : ∃ t', (auditUpdate d user i old new).Returns t () t' := by
  obtain ⟨o, ho⟩ := Option.isSome_iff_exists.mp (encodeDict_isSome.mpr hold)
  obtain ⟨n, hn⟩ := Option.isSome_iff_exists.mp (encodeDict_isSome.mpr hnew)
  exact ⟨_, Prog.returns_bind.mpr ⟨o, t, returns_orRaise.mpr ⟨ho, rfl⟩, Prog.returns_bind.mpr
    ⟨n, t, returns_orRaise.mpr ⟨hn, rfl⟩, Prog.returns_focus.mpr
      ⟨_, createAuditLog_returns _ _, rfl⟩⟩⟩⟩

theorem auditUpdate_raises {i : Uuid} {old new : Values}
    (h : ¬ (Serializable old ∧ Serializable new)) :
    (auditUpdate d user i old new).Raises t .typeError t := by
  unfold auditUpdate
  rcases ho : encodeDict old with _ | o
  · exact (Prog.raises_bind_of_raises (raises_orRaise.mpr ⟨rfl, rfl, rfl⟩)).mpr ⟨rfl, rfl⟩
  · rw [Prog.raises_bind_of_returns (returns_orRaise.mpr ⟨rfl, rfl⟩)]
    rcases hn : encodeDict new with _ | n
    · exact (Prog.raises_bind_of_raises (raises_orRaise.mpr ⟨rfl, rfl, rfl⟩)).mpr ⟨rfl, rfl⟩
    · refine absurd ⟨?_, ?_⟩ h
      · rw [← encodeDict_isSome, ho]
        rfl
      · rw [← encodeDict_isSome, hn]
        rfl

/-- **What `change` comes to**: nothing to do, a slug that is taken, a change that the database does
not accept, or a changed row. -/
theorem change_cases (data : WorkspaceUpdate) (hw : w ∈ s.db.workspaces.rows) :
    (data.dump.isEmpty = true ∧ (change w data).Returns s none s) ∨
    data.dump.isEmpty = false ∧
      ((¬ SlugFree s w data ∧
          (change w data).Raises s (.http 400 "Workspace slug already exists.") s) ∨
        SlugFree s w data ∧
          ((¬ Accepts s w data ∧ (change w data).Raises s .integrity s) ∨
            Accepts s w data ∧ ∃ t, Changed w data s t ∧ (change w data).Returns s
              (some ⟨patch data w, oldValues w (s.updatedBy w.id) data⟩) t)) := by
  unfold change
  rcases hempty : data.dump.isEmpty with _ | _
  · rw [if_neg Bool.false_ne_true]
    refine Or.inr ⟨rfl, ?_⟩
    rcases checkSlug_cases s w data with ⟨hfree, hcheck⟩ | ⟨htaken, hcheck⟩
    · refine Or.inr ⟨hfree, ?_⟩
      have hread : (Prog.gets fun s => s : StoreSvc Store).Returns s s s :=
        Prog.returns_gets.mpr ⟨rfl, rfl⟩
      by_cases hacc : Accepts s w data
      · obtain ⟨T, hT⟩ := exists_modify_of_slugFree hw hfree
        have hch : Changed w data s _ := ⟨T, hT, rfl⟩
        refine Or.inr ⟨hacc, _, hch, Prog.returns_bind.mpr ⟨(), s, hcheck, ?_⟩⟩
        refine Prog.returns_bind.mpr ⟨s, s, hread, ?_⟩
        exact Prog.returns_bind.mpr ⟨_, _, updateRow_returns hw hacc hch,
          Prog.returns_pure.mpr ⟨rfl, rfl⟩⟩
      · refine Or.inl ⟨hacc, ?_⟩
        rw [Prog.raises_bind_of_returns hcheck, Prog.raises_bind_of_returns hread]
        exact (Prog.raises_bind_of_raises (updateRow_raises hw hacc)).mpr ⟨rfl, rfl⟩
    · exact Or.inl ⟨htaken, (Prog.raises_bind_of_raises hcheck).mpr ⟨rfl, rfl⟩⟩
  · rw [if_pos rfl]
    exact Or.inl ⟨rfl, Prog.returns_pure.mpr ⟨rfl, rfl⟩⟩

/-- **Exactly when an update is answered**: where there is something to change and the slug is free,
the database accepts the row, and no identifier goes to the audit log. -/
theorem answered_updateWorkspace (hw : w ∈ s.db.workspaces.rows) :
    Answered (updateWorkspace d user w data) s ↔ (data.dump.isEmpty = false → SlugFree s w data →
      Accepts s w data ∧ ¬ RawIds s w data) := by
  unfold updateWorkspace
  rcases change_cases data hw with ⟨hempty, hch⟩ | ⟨hgiven, ⟨htaken, hch⟩ |
    ⟨hfree, ⟨hacc, hch⟩ | ⟨hacc, t, -, hch⟩⟩⟩
  · rw [answered_bind_of_returns hch]
    refine iff_of_true (answered_of_returns (Prog.returns_pure.mpr ⟨rfl, rfl⟩)) fun hgiven => ?_
    exact absurd (hempty.symm.trans hgiven) (by simp)
  · exact iff_of_true ((answered_bind_of_raises hch).mpr rfl) fun _ hfree => absurd hfree htaken
  · refine iff_of_false (fun h => ?_) fun h => hacc (h hgiven hfree).1
    exact Bool.noConfusion ((answered_bind_of_raises hch).mp h)
  · rw [answered_bind_of_returns hch]
    by_cases hraw : RawIds s w data
    · refine iff_of_false (fun h => ?_) fun h => (h hgiven hfree).2 hraw
      have haudit : (auditUpdate d user w.id (oldValues w (s.updatedBy w.id) data) data.dump).Raises
          t .typeError t := auditUpdate_raises fun henc => taken_dump_iff.mp henc.symm hraw
      exact Bool.noConfusion ((answered_bind_of_raises haudit).mp h)
    · obtain ⟨hnew, hold⟩ := taken_dump_iff.mpr hraw
      obtain ⟨t', haudit⟩ : ∃ t', (auditUpdate d user w.id (oldValues w (s.updatedBy w.id) data)
          data.dump).Returns t () t' := auditUpdate_returns hold hnew
      refine iff_of_true ?_ fun _ _ => ⟨hacc, hraw⟩
      exact (answered_bind_of_returns haudit).mpr
        (answered_of_returns (Prog.returns_pure.mpr ⟨rfl, rfl⟩))

end MarketingSuite.Workspaces.Updates
