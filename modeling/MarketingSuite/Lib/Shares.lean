import MarketingSuite.Lib.Tables

/-! # Shares of a table

A test on the rows splits a table in the owner's share and the rest. Two tables with the same share
answer the owner's queries alike; a write to a row of the share changes the two shares alike and
leaves the rest; and where the unique constraints compare rows of one share only, such a write goes
through in both tables or in neither. -/

namespace MarketingSuite.Lib.Shares

open MarketingSuite.Lib.Tables Keyed

variable {ρ κ : Type} [Keyed ρ κ]

/-- No unique constraint is between a row of the share and one of the rest. -/
def Separates (own : ρ → Bool) : Prop :=
  ∀ r s : ρ, own r = true → own s = false → compatible r s = true

/-- The rest of a table. -/
def rest (own : ρ → Bool) (T : Table ρ) : List ρ := T.select fun r => !own r

variable {T T₂ T' T₂' : Table ρ} {own p : ρ → Bool} {r : ρ} {f : ρ → ρ}

/-! ### Reading -/

theorem mem_iff_of_share (h : T.select own = T₂.select own) (hr : own r = true) :
    r ∈ T.rows ↔ r ∈ T₂.rows := by
  have hmem : ∀ U : Table ρ, r ∈ U.select own ↔ r ∈ U.rows := fun U =>
    Table.mem_select.trans (and_iff_left hr)
  rw [← hmem T, ← hmem T₂, h]

/-- A query that selects rows of the share is one on the share. -/
theorem select_eq_filter (hp : ∀ r ∈ T.rows, p r = true → own r = true) :
    T.select p = (T.select own).filter p := by
  rw [Table.select, Table.select, List.filter_filter]
  refine List.filter_congr fun r hr => ?_
  rcases hpr : p r with _ | _
  · rfl
  · rw [hp r hr hpr]
    rfl

/-- **The owner's queries** have the same answers. -/
theorem select_of_share (h : T.select own = T₂.select own)
    (hp : ∀ r ∈ T.rows, p r = true → own r = true)
    (hp₂ : ∀ r ∈ T₂.rows, p r = true → own r = true) : T.select p = T₂.select p := by
  rw [select_eq_filter hp, select_eq_filter hp₂, h]

/-! ### Writing -/

variable [DecidableEq κ] {k : κ}

theorem has_modify (hf : ∀ r, key (f r) = key r) (h : T.modify k f = some T') (i : κ) :
    T'.has i = T.has i := by
  rw [Bool.eq_iff_iff, Table.has_iff, Table.has_iff]
  constructor
  · rintro ⟨r, hr, rfl⟩
    exact Table.exists_before_modify (R := fun q r => key q = key r) h (fun _ => rfl)
      (fun q _ _ => (hf q).symm) r hr
  · rintro ⟨r, hr, rfl⟩
    exact Table.exists_after_modify (R := fun r q => key q = key r) h (fun _ => rfl)
      (fun q _ _ => hf q) r hr

theorem has_insert (h : T.insert r = some T') {i : κ} (hi : T.has i = true) : T'.has i = true := by
  obtain ⟨q, hq, hk⟩ := Table.has_iff.mp hi
  exact Table.has_iff.mpr ⟨q, (Table.mem_insert h).mpr (Or.inl hq), hk⟩

theorem select_modify (hown : ∀ r, own (f r) = own r) (h : T.modify k f = some T') :
    T'.select own = (T.select own).map fun r => if key r = k then f r else r := by
  have hside : ∀ r, own (if key r = k then f r else r) = own r := by
    intro r
    split_ifs
    · exact hown r
    · rfl
  rw [Table.select, Table.modify_eq_some.mp h, List.filter_map, Table.select]
  exact congrArg _ (List.filter_congr fun r _ => hside r)

theorem share_modify (hshare : T.select own = T₂.select own) (hown : ∀ r, own (f r) = own r)
    (h : T.modify k f = some T') (h₂ : T₂.modify k f = some T₂') :
    T'.select own = T₂'.select own := by
  rw [select_modify hown h, select_modify hown h₂, hshare]

/-- **The rest is left alone** by a change of a row of one's own. -/
theorem rest_modify (hown : ∀ r, own (f r) = own r)
    (hmine : ∀ r ∈ T.rows, key r = k → own r = true) (h : T.modify k f = some T') :
    rest own T' = rest own T := by
  have hsel : (T'.select fun r => !own r) =
      (T.select fun r => !own r).map fun r => if key r = k then f r else r :=
    select_modify (fun r => by rw [hown r]) h
  rw [rest, hsel]
  have hid : ∀ r ∈ T.select fun r => !own r, (if key r = k then f r else r) = r := by
    intro r hr
    obtain ⟨hr, hother⟩ := Table.mem_select.mp hr
    refine if_neg fun hk => ?_
    rw [hmine r hr hk] at hother
    exact absurd hother (by simp)
  rw [List.map_congr_left hid, List.map_id', rest]

theorem share_insert (hshare : T.select own = T₂.select own) (h : T.insert r = some T')
    (h₂ : T₂.insert r = some T₂') : T'.select own = T₂'.select own := by
  rw [Table.select_insert h, Table.select_insert h₂, hshare]

theorem rest_insert (hr : own r = true) (h : T.insert r = some T') : rest own T' = rest own T := by
  rw [rest, Table.select_insert h, rest]
  simp [hr]

/-- A change of a row of the share that one table allows, the other one allows. -/
theorem exists_modify_of_share (hsep : Separates own) (hshare : T.select own = T₂.select own)
    (hkey : ∀ r, key (f r) = key r) (hown : ∀ r, own (f r) = own r)
    (hmine : ∀ r ∈ T₂.rows, key r = k → own r = true) (h : ∃ T', T.modify k f = some T') :
    ∃ T₂', T₂.modify k f = some T₂' := by
  obtain ⟨T', hT'⟩ := h
  have hside : ∀ r, own (if key r = k then f r else r) = own r := by
    intro r
    split_ifs
    · exact hown r
    · rfl
  have hname : ∀ r, key (if key r = k then f r else r) = key r := by
    intro r
    split_ifs
    · exact hkey r
    · rfl
  have hrows : ∀ r ∈ T₂.rows, own r = true → (if key r = k then f r else r) ∈ T'.rows := by
    intro r hr hor
    rw [Table.modify_eq_some.mp hT']
    exact List.mem_map_of_mem ((mem_iff_of_share hshare hor).mpr hr)
  have hfixed : ∀ r ∈ T₂.rows, own r = false → (if key r = k then f r else r) = r := by
    intro r hr hor
    refine if_neg fun hk => ?_
    rw [hmine r hr hk] at hor
    exact absurd hor (by simp)
  refine ⟨⟨_, List.pairwise_map.mpr (T₂.nodup.pairwise_of_forall_ne fun r hr s hs hne => ?_)⟩,
    Table.modify_eq_some.mpr rfl⟩
  have happart := T₂.apart_of_mem hr hs hne
  refine ⟨by rw [hname r, hname s]; exact happart.1, ?_⟩
  rcases hor : own r with _ | _ <;> rcases hos : own s with _ | _
  · rw [hfixed r hr hor, hfixed s hs hos]
    exact happart.2
  · rw [Keyed.symm]
    exact hsep _ _ ((hside s).trans hos) ((hside r).trans hor)
  · exact hsep _ _ ((hside r).trans hor) ((hside s).trans hos)
  · refine (T'.apart_of_mem (hrows r hr hor) (hrows s hs hos) fun heq => happart.1 ?_).2
    rw [← hname r, ← hname s, heq]

/-- A row of the share that goes into one table goes into the other one, if its key is free there.
-/
theorem exists_insert_of_share (hsep : Separates own) (hshare : T.select own = T₂.select own)
    (hr : own r = true) (hnew : T₂.has (key r) = false) (h : ∃ T', T.insert r = some T') :
    ∃ T₂', T₂.insert r = some T₂' := by
  obtain ⟨T', hT'⟩ := h
  refine Table.exists_insert fun s hs => ⟨fun hk => ?_, ?_⟩
  · have hhas : T₂.has (key r) = true := Table.has_iff.mpr ⟨s, hs, hk⟩
    rw [hnew] at hhas
    exact absurd hhas (by simp)
  · rcases hos : own s with _ | _
    · rw [Keyed.symm]
      exact hsep r s hr hos
    · exact (Table.apart_of_insert hT' ((mem_iff_of_share hshare hos).mpr hs)).2

theorem not_has_of_insert (h : T.insert r = some T') : T.has (key r) = false := by
  by_contra hhas
  obtain ⟨q, hq, hk⟩ := Table.has_iff.mp (by simpa using hhas)
  exact (Table.apart_of_insert h hq).1 hk

end MarketingSuite.Lib.Shares
