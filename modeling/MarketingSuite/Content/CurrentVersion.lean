import MarketingSuite.Content.Service
import MarketingSuite.Lib.Runs

/-! # One current version

The versions of a content line (a campaign, a content type, a language, where no language counts as
"en") are made one after the other, and the last one is current. A row that is stored without its
language is of the line "en" and not found there, and `update_content` moves a row to another line
without looking. Every line has at most one current row exactly in the runs in which neither happens
to a current row. -/

namespace MarketingSuite.Content.CurrentVersion

open MarketingSuite.Lib.Programs MarketingSuite.Lib.Tables MarketingSuite.Lib.Runs
open MarketingSuite.Base.Values MarketingSuite.Base.Models MarketingSuite.Base.Schema
open MarketingSuite.Repositories.Base MarketingSuite.Campaigns.Service
open MarketingSuite.Content.Service

/-- The calls of the content service. -/
inductive Call
  | create (d : Draws) (workspaceId : Uuid) (data : CampaignContentCreate)
  | update (workspaceId campaignId contentId : Uuid) (data : CampaignContentUpdate)
  | delete (d : Draws) (workspaceId campaignId contentId : Uuid)

/-- One call, as a transaction. -/
def step (s : Database) : Call → Database
  | .create d w data => (createCampaignContent d w data).settle s
  | .update w c i data => (updateContent w c i data).settle s
  | .delete d w c i => (deleteContent d w c i).settle s

/-- A content line. -/
abbrev Line := Uuid × ContentType × String

/-- The line of a row. -/
def lineOf (r : CampaignContent) : Line := (r.campaignId, r.contentType, orElse r.language "en")

/-- The line of a request. -/
def lineFor (data : CampaignContentCreate) : Line :=
  (data.campaignId, data.contentType, orElse data.language "en")

/-- The row is current, and not deleted. -/
def current (r : CampaignContent) : Bool := r.isCurrent && r.deletedAt.isNone

/-- Every line has at most one current row. -/
def OneCurrent (s : Database) : Prop :=
  ∀ r ∈ s.campaignContents.rows, ∀ q ∈ s.campaignContents.rows,
    current r = true → current q = true → lineOf r = lineOf q → r.id = q.id

/-- A row that `create_campaign_content` returns is a current row of its line. -/
def LeavesCurrent (s : Database) : Call → Prop
  | .create d w data => ∀ a s', (createCampaignContent d w data).Returns s a s' →
    a ∈ (step s (.create d w data)).campaignContents.rows ∧ current a = true ∧
      lineOf a = lineFor data
  | _ => True

/-- The current row of the line of a new row is stored with the language that it is looked up with,
and no current row is moved to a line that has another one. -/
def KeepsLines (s : Database) : Call → Prop
  | .create d w data => CreateAccepts s d w data → ∀ p ∈ s.campaignContents.rows,
    current p = true → lineOf p = lineFor data → p.language = some (orElse data.language "en")
  | .update w c i data => UpdateAccepts s w c i data → ∀ r ∈ s.campaignContents.rows, r.id = i →
    current r = true → ∀ q ∈ s.campaignContents.rows, q.id ≠ i → current q = true →
      lineOf q ≠ lineOf (patch data r)
  | .delete .. => True

instance : DecidablePred OneCurrent :=
  fun _ => inferInstanceAs (Decidable (∀ r ∈ _, ∀ q ∈ _, _ → _ → _ → _))

variable {s s' : Database} {d : Draws} {w c i : Uuid} {data : CampaignContentCreate}
  {upd : CampaignContentUpdate} {r p q a : CampaignContent}

/-! ### Lines -/

theorem matching_iff :
    matching data.campaignId data.contentType (orElse data.language "en") p = true ↔
    current p = true ∧ lineOf p = lineFor data ∧ p.language = some (orElse data.language "en") := by
  have hne : orElse data.language "en" ≠ "" := by
    unfold orElse
    rcases data.language with _ | l
    · decide
    · dsimp only
      split_ifs with hl
      · decide
      · exact hl
  constructor
  · intro h
    simp only [matching, Bool.and_eq_true, decide_eq_true_eq] at h
    obtain ⟨⟨⟨⟨hc, ht⟩, hl⟩, hcur⟩, hd⟩ := h
    refine ⟨by simp [current, hcur, hd], ?_, hl⟩
    rw [lineOf, lineFor, hc, ht, hl, orElse_of_ne_empty hne]
  · rintro ⟨hcur, hline, hl⟩
    simp only [lineOf, lineFor, Prod.mk.injEq] at hline
    simp only [current, Bool.and_eq_true] at hcur
    simp [matching, hline.1, hline.2.1, hl, hcur.1, hcur.2]

theorem current_contentOf (d : Draws) (w : Uuid) (data : CampaignContentCreate)
    (o : Option CampaignContent) :
    current (contentOf d w data o) = true ∧ lineOf (contentOf d w data o) = lineFor data :=
  ⟨rfl, rfl⟩

/-- A row that is current after a new version came was so before, and is not the one it replaced. -/
theorem current_demote {o : Option CampaignContent} (h : current (demote o p) = true) :
    demote o p = p ∧ o.map CampaignContent.id ≠ some p.id := by
  unfold demote at h ⊢
  split_ifs at h ⊢ with hid
  · exact absurd h (by simp [current, notCurrent])
  · exact ⟨rfl, hid⟩

/-! ### One call -/

theorem oneCurrent_create_iff (hs : OneCurrent s)
    (h : (createCampaignContent d w data).Returns s a s') :
    OneCurrent s' ↔ KeepsLines s (.create d w data) := by
  obtain ⟨hacc, rfl, T, rfl, hrows⟩ := createCampaignContent_spec h
  obtain ⟨hcur, hline⟩ := current_contentOf d w data (latestOf s data)
  constructor
  · -- a current row of the line that was not found is still there, next to the new one
    intro hone _ p hp hpcur hpline
    by_cases hid : (latestOf s data).map CampaignContent.id = some p.id
    · obtain ⟨p', hp', hpp⟩ := Option.map_eq_some_iff.mp hid
      obtain ⟨hmem, hmatch⟩ := latestOf_some hp'
      obtain rfl := s.campaignContents.eq_of_key_eq hmem hp hpp
      exact (matching_iff.mp hmatch).2.2
    · have hkept : demote (latestOf s data) p = p := if_neg hid
      have hmem := (hrows p).mpr (Or.inl ⟨p, hp, hkept.symm⟩)
      have hnew := (hrows _).mpr (Or.inr rfl)
      exact absurd (hone p hmem _ hnew hpcur hcur (hpline.trans hline.symm)) (hacc.fresh p hp)
  · intro hkeep
    -- a row that is still current and of the line of the new one would have been found
    have hother : ∀ p ∈ s.campaignContents.rows, current (demote (latestOf s data) p) = true →
        lineOf (demote (latestOf s data) p) ≠ lineFor data := by
      intro p hp hpcur hpline
      obtain ⟨heq, hid⟩ := current_demote hpcur
      rw [heq] at hpcur hpline
      have hmatch := matching_iff.mpr ⟨hpcur, hpline, hkeep hacc p hp hpcur hpline⟩
      rcases hlatest : latestOf s data with _ | p'
      · rw [latestOf_none hlatest p hp] at hmatch
        exact Bool.noConfusion hmatch
      · obtain ⟨hp', hmatch'⟩ := latestOf_some hlatest
        obtain ⟨hcur', hline', -⟩ := matching_iff.mp hmatch'
        rw [hlatest] at hid
        exact hid (congrArg some (hs p' hp' p hp hcur' hpcur (hline'.trans hpline.symm)))
    intro r hr q hq hrcur hqcur hrq
    rcases (hrows r).mp hr with ⟨p, hp, rfl⟩ | rfl
    · rcases (hrows q).mp hq with ⟨p', hp', rfl⟩ | rfl
      · have hpeq := (current_demote hrcur).1
        have hpeq' := (current_demote hqcur).1
        rw [hpeq, hpeq'] at hrq ⊢
        rw [hpeq] at hrcur
        rw [hpeq'] at hqcur
        exact hs p hp p' hp' hrcur hqcur hrq
      · exact absurd (hrq.trans hline) (hother p hp hrcur)
    · rcases (hrows q).mp hq with ⟨p', hp', rfl⟩ | rfl
      · exact absurd (hrq.symm.trans hline) (hother p' hp' hqcur)
      · rfl

theorem oneCurrent_update_iff (hs : OneCurrent s) (h : (updateContent w c i upd).Returns s a s') :
    OneCurrent s' ↔ KeepsLines s (.update w c i upd) := by
  obtain ⟨hacc, T, hT, rfl⟩ := updateContent_spec h
  have hrows : ∀ q, q ∈ T.rows ↔ (q ∈ s.campaignContents.rows ∧ q.id ≠ i) ∨
      ∃ r ∈ s.campaignContents.rows, r.id = i ∧ q = patch upd r := fun q => Table.mem_modify hT
  constructor
  · intro hone _ r hr hri hrcur q hq hqi hqcur hline
    have hmem := (hrows _).mpr (Or.inr ⟨r, hr, hri, rfl⟩)
    exact hqi ((hone q ((hrows q).mpr (Or.inl ⟨hq, hqi⟩)) _ hmem hqcur hrcur hline).trans hri)
  · intro hkeep r hr q hq hrcur hqcur hline
    rcases (hrows r).mp hr with ⟨hr, hri⟩ | ⟨r₀, hr₀, hri, rfl⟩
    · rcases (hrows q).mp hq with ⟨hq, hqi⟩ | ⟨q₀, hq₀, hqi, rfl⟩
      · exact hs r hr q hq hrcur hqcur hline
      · exact absurd hline (hkeep hacc q₀ hq₀ hqi hqcur r hr hri hrcur)
    · rcases (hrows q).mp hq with ⟨hq, hqi⟩ | ⟨q₀, hq₀, hqi, rfl⟩
      · exact absurd hline.symm (hkeep hacc r₀ hr₀ hri hrcur q hq hqi hqcur)
      · exact hri.trans hqi.symm

theorem oneCurrent_delete (hs : OneCurrent s) (h : (deleteContent d w c i).Returns s a s') :
    OneCurrent s' := by
  rcases deleteContent_spec h with rfl | ⟨T, hT, rfl⟩
  · exact hs
  · have hold : ∀ q ∈ T.rows, current q = true → q ∈ s.campaignContents.rows :=
      Table.forall_modify hT (fun q hq _ => hq) fun r _ _ hcur => absurd hcur (by simp [current])
    exact fun r hr q hq hrcur hqcur => hs r (hold r hr hrcur) q (hold q hq hqcur) hrcur hqcur

/-- **One call** keeps one current row a line exactly if it is one of those. -/
theorem oneCurrent_step_iff (hs : OneCurrent s) (e : Call) :
    OneCurrent (step s e) ↔ KeepsLines s e := by
  cases e with
  | create d w data =>
    refine Prog.settle_iff (I := OneCurrent) hs (fun a s' h => oneCurrent_create_iff hs h) ?_
    exact fun hfail hacc => absurd (createCampaignContent_succeeds hacc) hfail
  | update w c i data =>
    refine Prog.settle_iff (I := OneCurrent) hs (fun a s' h => oneCurrent_update_iff hs h) ?_
    exact fun hfail hacc => absurd (updateContent_succeeds hacc) hfail
  | delete d w c i =>
    refine iff_of_true ?_ trivial
    exact Prog.settle_inv (I := OneCurrent) hs fun a s' h => oneCurrent_delete hs h

theorem leavesCurrent (s : Database) (e : Call) : LeavesCurrent s e := by
  cases e with
  | create d w data =>
    intro a s' h
    obtain ⟨-, rfl, T, rfl, hrows⟩ := createCampaignContent_spec h
    rw [step, Prog.settle_of_returns h]
    exact ⟨(hrows _).mpr (Or.inr rfl), current_contentOf _ _ _ _⟩
  | _ => exact trivial

/-! ### Runs -/

/-- **One current version** a line, in every state of a run, and every created row is the one of its
line: exactly if no call breaks a line. -/
theorem oneCurrent_iff (s : Database) (l : List Call) (hs : OneCurrent s) :
    (Always step OneCurrent s l ∧ Along step LeavesCurrent s l) ↔ Along step KeepsLines s l := by
  have hiff : Always step OneCurrent s l ↔ Along step KeepsLines s l :=
    always_iff_along (fun _ e hs => oneCurrent_step_iff hs e) hs
  have hleaves : Along step LeavesCurrent s l := along_iff.mpr fun _ e _ => leavesCurrent _ e
  rw [hiff]
  exact and_iff_left hleaves

/-- A request in English. -/
def post : CampaignContentCreate :=
  { campaignId := 30, title := "Post", contentType := .socialPost }

/-- Two versions in English, and a French one made of the second. -/
theorem oneCurrent_iff_posts : Always step OneCurrent launched
      [.create (drawsFrom 60 1 "") 10 post, .create (drawsFrom 61 2 "") 10 post,
        .update 10 30 61 { language := some (some "fr") }] ∧
    Along step LeavesCurrent launched
      [.create (drawsFrom 60 1 "") 10 post, .create (drawsFrom 61 2 "") 10 post,
        .update 10 30 61 { language := some (some "fr") }] :=
  (oneCurrent_iff launched _ (by decide)).mpr
    ⟨fun _ => by decide, fun _ => by decide, fun _ => by decide, trivial⟩

/-- A request that names no language. -/
def letter : CampaignContentCreate :=
  { campaignId := 30, title := "Letter", contentType := .email, language := none }

/-- **Two current versions**: the language is null, twice. -/
theorem two_current_versions : ¬ Always step OneCurrent launched
    [.create (drawsFrom 60 1 "") 10 letter, .create (drawsFrom 61 2 "") 10 letter] := by
  decide

end MarketingSuite.Content.CurrentVersion
