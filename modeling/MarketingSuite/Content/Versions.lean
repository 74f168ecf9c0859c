import MarketingSuite.Content.CurrentVersion

/-! # Version numbers

`create_campaign_content` numbers a new version after the newest row of its campaign, content type
and language that is both current and not deleted. Once the current row is deleted there is none,
and the numbers start at 1 again, next to the older versions that are still there. Numbers are fresh
exactly in the runs in which every line that has rows also has a current one when a version is added
to it. -/

namespace MarketingSuite.Content.Versions

open MarketingSuite.Lib.Programs MarketingSuite.Lib.Tables MarketingSuite.Lib.Runs
open MarketingSuite.Base.Values MarketingSuite.Base.Models MarketingSuite.Base.Schema
open MarketingSuite.Content.Service MarketingSuite.Content.CurrentVersion
open MarketingSuite.Campaigns.Service (launched)

/-- Two rows of one campaign, content type and language. -/
def SameLine (p q : CampaignContent) : Prop :=
  p.campaignId = q.campaignId ∧ p.contentType = q.contentType ∧ p.language = q.language

/-- The row is of the campaign, the content type and the language of the request. -/
def OfRequest (data : CampaignContentCreate) (p : CampaignContent) : Prop :=
  p.campaignId = data.campaignId ∧ p.contentType = data.contentType ∧ p.language = data.language

/-- A request that names its language, or an update that moves no row to another content type or
language, or a deletion. -/
def Plain (s : Database) : Call → Prop
  | .create _ _ data => truthy data.language = true
  | .update _ _ i data => ∀ r ∈ s.campaignContents.rows, r.id = i →
    (patch data r).contentType = r.contentType ∧ (patch data r).language = r.language
  | .delete .. => True

/-- A row that the call adds has a number above that of every row of its line, deleted or not. -/
def FreshVersion (s : Database) (e : Call) : Prop :=
  ∀ a ∈ (step s e).campaignContents.rows, (∀ p ∈ s.campaignContents.rows, p.id ≠ a.id) →
    ∀ p ∈ s.campaignContents.rows, SameLine p a → p.version < a.version

/-- If there are rows of the line of a new row, one of them is current and not deleted. -/
def HasCurrent (s : Database) : Call → Prop
  | .create d w data => CreateAccepts s d w data → ∀ p ∈ s.campaignContents.rows,
    OfRequest data p → ∃ q ∈ s.campaignContents.rows, OfRequest data q ∧ current q = true
  | _ => True

/-- **The invariant**: numbers start at 1, and the one current row of a line has the largest. -/
def Numbered (s : Database) : Prop :=
  ∀ p ∈ s.campaignContents.rows, 1 ≤ p.version ∧ ∀ q ∈ s.campaignContents.rows, SameLine q p →
    current p = true → q.version ≤ p.version ∧ (current q = true → q.id = p.id)

instance (p q : CampaignContent) : Decidable (SameLine p q) := by unfold SameLine; infer_instance

instance (data : CampaignContentCreate) (p : CampaignContent) : Decidable (OfRequest data p) := by
  unfold OfRequest
  infer_instance

instance : DecidablePred Numbered :=
  fun _ => inferInstanceAs (Decidable (∀ p ∈ _, _ ∧ ∀ q ∈ _, _ → _ → _))

instance (s : Database) (e : Call) : Decidable (FreshVersion s e) :=
  inferInstanceAs (Decidable (∀ a ∈ _, (∀ p ∈ _, _) → ∀ p ∈ _, _ → _))

variable {s s' : Database} {d : Draws} {w c i : Uuid} {data : CampaignContentCreate}
  {upd : CampaignContentUpdate} {p q a : CampaignContent} {o : Option CampaignContent}

/-! ### Lines -/

theorem sameLine_contentOf : SameLine p (contentOf d w data o) ↔ OfRequest data p := Iff.rfl

theorem matching_iff_of_truthy (hl : truthy data.language = true) :
    matching data.campaignId data.contentType (orElse data.language "en") p = true ↔
      OfRequest data p ∧ current p = true := by
  obtain ⟨l, hlang, hne⟩ : ∃ l, data.language = some l ∧ l ≠ "" := by
    rcases hd : data.language with _ | l
    · rw [hd] at hl
      exact absurd hl (by decide)
    · exact ⟨l, rfl, by simpa [hd, truthy] using hl⟩
  rw [hlang, orElse_of_ne_empty hne]
  simp only [matching, OfRequest, hlang, current, Bool.and_eq_true, decide_eq_true_eq]
  tauto

theorem latestOf_iff (hl : truthy data.language = true) (h : latestOf s data = some p) :
    p ∈ s.campaignContents.rows ∧ OfRequest data p ∧ current p = true := by
  obtain ⟨hp, hm⟩ := latestOf_some h
  exact ⟨hp, (matching_iff_of_truthy hl).mp hm⟩

theorem demote_line (o : Option CampaignContent) (p : CampaignContent) :
    SameLine (demote o p) q ↔ SameLine p q :=
  Iff.of_eq (demote_keeps (v := fun p => SameLine p q) (fun _ => rfl) o p)

theorem demote_version (o : Option CampaignContent) (p : CampaignContent) :
    (demote o p).version = p.version :=
  demote_keeps (fun _ => rfl) o p

theorem sameLine_of_ofRequest (hp : OfRequest data p) (hq : OfRequest data q) : SameLine p q :=
  ⟨hp.1.trans hq.1.symm, hp.2.1.trans hq.2.1.symm, hp.2.2.trans hq.2.2.symm⟩

/-! ### One call -/

/-- The number of a new version is above the rows of its line exactly if one of them was found. -/
theorem version_lt_iff (hs : Numbered s) (hl : truthy data.language = true) :
    (∀ p ∈ s.campaignContents.rows, OfRequest data p →
        p.version < (contentOf d w data (latestOf s data)).version) ↔
      ∀ p ∈ s.campaignContents.rows, OfRequest data p →
        ∃ q ∈ s.campaignContents.rows, OfRequest data q ∧ current q = true := by
  rcases ho : latestOf s data with _ | q
  · -- nothing was found, and the new row gets the number 1
    have hnone := latestOf_none ho
    refine forall₃_congr fun p hp hline => ?_
    refine iff_of_false (not_lt.mpr (hs p hp).1) ?_
    rintro ⟨q, hq, hqline, hqcur⟩
    have hm := (matching_iff_of_truthy hl).mpr ⟨hqline, hqcur⟩
    rw [hnone q hq] at hm
    exact Bool.noConfusion hm
  · obtain ⟨hq, hqline, hqcur⟩ := latestOf_iff hl ho
    refine forall₃_congr fun p hp hline => iff_of_true ?_ ⟨q, hq, hqline, hqcur⟩
    have hle := ((hs q hq).2 p hp (sameLine_of_ofRequest hline hqline) hqcur).1
    exact Nat.lt_succ_of_le hle

/-- A row is new exactly if it is the one that `create_campaign_content` makes. -/
theorem freshVersion_create_iff (hs : Numbered s) (hl : truthy data.language = true)
    (h : (createCampaignContent d w data).Returns s a s') :
    FreshVersion s (.create d w data) ↔ HasCurrent s (.create d w data) := by
  have hstep : step s (.create d w data) = s' := Prog.settle_of_returns h
  obtain ⟨hacc, rfl, T, rfl, hrows⟩ := createCampaignContent_spec h
  have hiff := version_lt_iff (d := d) (w := w) hs hl
  unfold FreshVersion
  rw [hstep]
  constructor
  · intro hfresh _
    refine hiff.mp fun p hp hline => ?_
    exact hfresh _ ((hrows _).mpr (Or.inr rfl)) hacc.fresh p hp (sameLine_contentOf.mpr hline)
  · intro hcur a ha hnew p hp hline
    rcases (hrows a).mp ha with ⟨r, hr, rfl⟩ | rfl
    · exact absurd (demote_id _ r).symm (hnew r hr)
    · exact hiff.mpr (hcur hacc) p hp (sameLine_contentOf.mp hline)

theorem numbered_create (hs : Numbered s) (hl : truthy data.language = true)
    (hcur : HasCurrent s (.create d w data))
    (h : (createCampaignContent d w data).Returns s a s') : Numbered s' := by
  obtain ⟨hacc, rfl, T, rfl, hrows⟩ := createCampaignContent_spec h
  have hlt := (version_lt_iff (d := d) (w := w) hs hl).mpr (hcur hacc)
  have hone : 1 ≤ (contentOf d w data (latestOf s data)).version := by
    rcases ho : latestOf s data with _ | q
    · exact le_rfl
    · exact Nat.succ_le_succ (Nat.zero_le _)
  -- a row that is still current is of another line than the new one
  have hother : ∀ p ∈ s.campaignContents.rows, current (demote (latestOf s data) p) = true →
      ¬ OfRequest data p := by
    intro p hp hpcur hline
    obtain ⟨heq, hid⟩ := current_demote hpcur
    rw [heq] at hpcur
    rcases ho : latestOf s data with _ | q
    · have hm := (matching_iff_of_truthy hl).mpr ⟨hline, hpcur⟩
      rw [latestOf_none ho p hp] at hm
      exact Bool.noConfusion hm
    · obtain ⟨hq, hqline, hqcur⟩ := latestOf_iff hl ho
      have hsame := ((hs p hp).2 q hq (sameLine_of_ofRequest hqline hline) hpcur).2 hqcur
      rw [ho] at hid
      exact hid (congrArg some hsame)
  intro p hp
  rcases (hrows p).mp hp with ⟨p₀, hp₀, rfl⟩ | rfl
  · rw [demote_version]
    refine ⟨(hs p₀ hp₀).1, fun q hq hline hpcur => ?_⟩
    have heq := (current_demote hpcur).1
    rw [heq] at hline
    rcases (hrows q).mp hq with ⟨q₀, hq₀, rfl⟩ | rfl
    · obtain ⟨hle, hid⟩ :=
        (hs p₀ hp₀).2 q₀ hq₀ ((demote_line _ q₀).mp hline) (by rw [← heq]; exact hpcur)
      rw [demote_version, demote_id, demote_id]
      exact ⟨hle, fun hqcur => hid (by rw [← (current_demote hqcur).1]; exact hqcur)⟩
    · exact absurd ⟨hline.1.symm, hline.2.1.symm, hline.2.2.symm⟩ (hother p₀ hp₀ hpcur)
  · refine ⟨hone, fun q hq hline _ => ?_⟩
    rcases (hrows q).mp hq with ⟨q₀, hq₀, rfl⟩ | rfl
    · have hqline := (demote_line _ q₀).mp hline
      rw [demote_version]
      exact ⟨le_of_lt (hlt q₀ hq₀ hqline), fun hqcur => absurd hqline (hother q₀ hq₀ hqcur)⟩
    · exact ⟨le_rfl, fun _ => rfl⟩

/-- The invariant survives a change of one row that keeps its line and its number and makes it no
more current than it was. -/
theorem numbered_of_modify {f : CampaignContent → CampaignContent} {T : Table CampaignContent}
    (hs : Numbered s) (hT : s.campaignContents.modify i f = some T)
    (hf : ∀ r ∈ s.campaignContents.rows, r.id = i → SameLine (f r) r ∧ (f r).id = r.id ∧
      (f r).version = r.version ∧ (current (f r) = true → current r = true)) :
    Numbered { s with campaignContents := T } := by
  have hrow : ∀ p ∈ T.rows, ∃ r ∈ s.campaignContents.rows, SameLine p r ∧ p.id = r.id ∧
      p.version = r.version ∧ (current p = true → current r = true) :=
    Table.exists_before_modify hT (fun _ => ⟨⟨rfl, rfl, rfl⟩, rfl, rfl, fun h => h⟩) hf
  intro p hp
  obtain ⟨r, hr, hpr, hid, hv, hcur⟩ := hrow p hp
  rw [hv, hid]
  refine ⟨(hs r hr).1, fun q hq hline hpcur => ?_⟩
  obtain ⟨r', hr', hqr, hid', hv', hcur'⟩ := hrow q hq
  rw [hv', hid']
  have hline' : SameLine r' r :=
    ⟨hqr.1.symm.trans (hline.1.trans hpr.1), hqr.2.1.symm.trans (hline.2.1.trans hpr.2.1),
      hqr.2.2.symm.trans (hline.2.2.trans hpr.2.2)⟩
  obtain ⟨hle, hsame⟩ := (hs r hr).2 r' hr' hline' (hcur hpcur)
  exact ⟨hle, fun hqcur => hsame (hcur' hqcur)⟩

/-- **One call** that is plain and finds a current row keeps the invariant. -/
theorem numbered_step {e : Call} (hs : Numbered s) (hp : Plain s e) (hc : HasCurrent s e) :
    Numbered (step s e) := by
  cases e with
  | create d w data =>
    refine Prog.settle_inv (I := Numbered) hs fun a s' h => ?_
    exact numbered_create hs hp hc h
  | update w c i upd =>
    refine Prog.settle_inv (I := Numbered) hs fun a s' h => ?_
    obtain ⟨-, T, hT, rfl⟩ := updateContent_spec h
    refine numbered_of_modify hs hT fun r hr hk => ?_
    obtain ⟨ht, hl⟩ := hp r hr hk
    exact ⟨⟨rfl, ht, hl⟩, rfl, rfl, fun h => h⟩
  | delete d w c i =>
    refine Prog.settle_inv (I := Numbered) hs fun a s' h => ?_
    rcases deleteContent_spec h with rfl | ⟨T, hT, rfl⟩
    · exact hs
    · refine numbered_of_modify hs hT fun r _ _ => ?_
      exact ⟨⟨rfl, rfl, rfl⟩, rfl, rfl, fun h => absurd h (by simp [current])⟩

theorem freshVersion_of_ids {e : Call} (h : ∀ a ∈ (step s e).campaignContents.rows,
    ∃ p ∈ s.campaignContents.rows, p.id = a.id) : FreshVersion s e := by
  intro a ha hnew
  obtain ⟨p, hp, hid⟩ := h a ha
  exact absurd hid (hnew p hp)

theorem exists_of_modify {f : CampaignContent → CampaignContent} {T : Table CampaignContent}
    (hT : s.campaignContents.modify i f = some T) (hf : ∀ r, (f r).id = r.id) (ha : a ∈ T.rows) :
    ∃ p ∈ s.campaignContents.rows, p.id = a.id :=
  Table.exists_before_modify (R := fun p a => p.id = a.id) hT (fun _ => rfl)
    (fun r _ _ => (hf r).symm) a ha

theorem freshVersion_iff {e : Call} (hs : Numbered s) (hp : Plain s e) :
    FreshVersion s e ↔ HasCurrent s e := by
  cases e with
  | create d w data =>
    rcases (createCampaignContent d w data).settle_cases s with ⟨a, h⟩ | ⟨h, hno⟩
    · exact freshVersion_create_iff hs hp h
    · refine iff_of_true (freshVersion_of_ids fun a ha => ⟨a, ?_, rfl⟩) fun hacc => ?_
      · rw [step, h] at ha
        exact ha
      · obtain ⟨a, s', hret⟩ := Prog.succeeds_iff.mp (createCampaignContent_succeeds hacc)
        exact absurd hret (hno a s')
  | update w c i upd =>
    refine iff_of_true (freshVersion_of_ids ?_) trivial
    refine Prog.settle_inv (I := fun t : Database => ∀ a ∈ t.campaignContents.rows,
      ∃ p ∈ s.campaignContents.rows, p.id = a.id) (fun a ha => ⟨a, ha, rfl⟩) fun b t h a ha => ?_
    obtain ⟨-, T, hT, rfl⟩ := updateContent_spec h
    exact exists_of_modify hT (fun _ => rfl) ha
  | delete d w c i =>
    refine iff_of_true (freshVersion_of_ids ?_) trivial
    refine Prog.settle_inv (I := fun t : Database => ∀ a ∈ t.campaignContents.rows,
      ∃ p ∈ s.campaignContents.rows, p.id = a.id) (fun a ha => ⟨a, ha, rfl⟩) fun b t h a ha => ?_
    rcases deleteContent_spec h with rfl | ⟨T, hT, rfl⟩
    · exact ⟨a, ha, rfl⟩
    · exact exists_of_modify hT (fun _ => rfl) ha

/-! ### Runs -/

/-- **Fresh numbers** in a run of plain calls: exactly if every version is added to a line that is
empty or has a current row. -/
theorem along_freshVersion_iff (hs : Numbered s) (l : List Call) (hl : Along step Plain s l) :
    Along step FreshVersion s l ↔ Along step HasCurrent s l := by
  induction l generalizing s with
  | nil => exact Iff.rfl
  | cons e l ih =>
    obtain ⟨hp, hl⟩ := hl
    have hiff := freshVersion_iff hs hp
    constructor
    · rintro ⟨hf, h⟩
      have hc := hiff.mp hf
      exact ⟨hc, (ih (numbered_step hs hp hc) hl).mp h⟩
    · rintro ⟨hc, h⟩
      exact ⟨hiff.mpr hc, (ih (numbered_step hs hp hc) hl).mpr h⟩

/-- Two versions in English; the first is deleted, and a third one is made. -/
theorem along_freshVersion_posts : Along step FreshVersion launched
    [.create (drawsFrom 60 1 "") 10 post, .create (drawsFrom 61 2 "") 10 post,
      .delete (drawsFrom 0 3 "") 10 30 60, .create (drawsFrom 62 4 "") 10 post] :=
  (along_freshVersion_iff (by decide) _ (by exact ⟨rfl, rfl, trivial, rfl, trivial⟩)).mpr
    ⟨fun _ => by decide, fun _ => by decide, trivial, fun _ => by decide, trivial⟩

/-- **A number is used twice**: the second version is deleted, and the next one is the second row
with the number 1, next to the first version. -/
theorem first_version_twice :
    Along step Plain launched
      [.create (drawsFrom 60 1 "") 10 post, .create (drawsFrom 61 2 "") 10 post,
        .delete (drawsFrom 0 3 "") 10 30 61, .create (drawsFrom 62 4 "") 10 post] ∧
    ¬ Along step FreshVersion launched
      [.create (drawsFrom 60 1 "") 10 post, .create (drawsFrom 61 2 "") 10 post,
        .delete (drawsFrom 0 3 "") 10 30 61, .create (drawsFrom 62 4 "") 10 post] :=
  ⟨⟨rfl, rfl, trivial, rfl, trivial⟩, by decide⟩

end MarketingSuite.Content.Versions
