import MarketingSuite.Content.CurrentVersion
import MarketingSuite.Lib.Chains

/-! # Version chains

`create_campaign_content` gives a new row the number after the row it found, and that row as its
parent; no call changes a number or a parent afterwards, and a deleted row stays in the table. So the
rows that `parent_version_id` leads to, deleted ones included, count down to 1 and end there. -/

namespace MarketingSuite.Content.VersionChains

open MarketingSuite.Lib.Programs MarketingSuite.Lib.Tables MarketingSuite.Lib.Runs
open MarketingSuite.Lib.Chains
open MarketingSuite.Base.Values MarketingSuite.Base.Models MarketingSuite.Base.Schema
open MarketingSuite.Content.Service MarketingSuite.Content.CurrentVersion
open MarketingSuite.Campaigns.Service (launched)

/-- The row is a first version, or its parent is there, of its campaign, and the version before. -/
structure Linked (s : Database) (p : CampaignContent) : Prop where
  first : p.parentVersionId = none → p.version = 1
  parent : ∀ i, p.parentVersionId = some i → ∃ q ∈ s.campaignContents.rows,
    q.id = i ∧ q.campaignId = p.campaignId ∧ p.version = q.version + 1

/-- **The invariant**: every row, deleted or not, is linked. -/
def WellChained (s : Database) : Prop := ∀ p ∈ s.campaignContents.rows, Linked s p

/-- `CampaignContent.parent_version`: the row that `parent_version_id` names, deleted or not. -/
def parentVersion (s : Database) (p : CampaignContent) : Option CampaignContent :=
  p.parentVersionId.bind fun i => s.campaignContents.rows.find? fun q => q.id = i

/-- After `k` steps along `parent_version_id` comes a row of the table that has none. -/
def EndsAtFirst (s : Database) (k : ℕ) (p : CampaignContent) : Prop :=
  ∃ q ∈ s.campaignContents.rows,
    follow (parentVersion s) k p = some q ∧ q.parentVersionId = none

/-- The databases that the three operations lead to, in any order and accepted or not, from any
database without contents, whatever happens to the other tables in between. -/
inductive Reachable : Database → Prop
  | init {s : Database} : s.campaignContents.rows = [] → Reachable s
  | call {s : Database} (e : Call) : Reachable s → Reachable (step s e)
  | others {s t : Database} : Reachable s → t.campaignContents = s.campaignContents → Reachable t

variable {s t : Database} {T : Table CampaignContent} {d : Draws} {w i : Uuid}
  {data : CampaignContentCreate} {p q r : CampaignContent} {k : ℕ}

/-! ### What a chain sees of a row -/

/-- The columns that chains are made of. -/
def link (p : CampaignContent) : Uuid × Uuid × ℕ × Option Uuid :=
  (p.id, p.campaignId, p.version, p.parentVersionId)

theorem link_demote (o : Option CampaignContent) (p : CampaignContent) :
    link (demote o p) = link p :=
  demote_keeps (fun _ => rfl) o p

theorem Linked.transfer (h : Linked s p) (hp : link q = link p)
    (hrows : ∀ r ∈ s.campaignContents.rows, ∃ r' ∈ t.campaignContents.rows, link r' = link r) :
    Linked t q := by
  simp only [link, Prod.mk.injEq] at hp hrows
  obtain ⟨-, hc, hv, hparent⟩ := hp
  constructor
  · intro hnone
    rw [hv]
    exact h.first (hparent.symm.trans hnone)
  · intro i hi
    obtain ⟨r, hr, hri, hrc, hrv⟩ := h.parent i (hparent.symm.trans hi)
    obtain ⟨r', hr', hid, hc', hv', -⟩ := hrows r hr
    exact ⟨r', hr', hid.trans hri, by rw [hc', hc, hrc], by rw [hv, hv', hrv]⟩

/-- **The step rule**: the rows keep their columns, and a row that is new is linked to one of
them. -/
theorem wellChained_of_rows (hs : WellChained s)
    (hkeep : ∀ r ∈ s.campaignContents.rows, ∃ r' ∈ t.campaignContents.rows, link r' = link r)
    (hnew : ∀ q ∈ t.campaignContents.rows,
      (∃ p ∈ s.campaignContents.rows, link q = link p) ∨ Linked s q) : WellChained t := by
  intro q hq
  rcases hnew q hq with ⟨p, hp, hqp⟩ | hlinked
  · exact (hs p hp).transfer hqp hkeep
  · exact hlinked.transfer rfl hkeep

theorem wellChained_of_modify {f : CampaignContent → CampaignContent} (hs : WellChained s)
    (hT : s.campaignContents.modify i f = some T) (hf : ∀ r, link (f r) = link r) :
    WellChained { s with campaignContents := T } := by
  have hafter := Table.exists_after_modify (R := fun r q => link q = link r) hT (fun _ => rfl)
    fun r _ _ => hf r
  have hbefore := Table.exists_before_modify (R := fun r q => link q = link r) hT (fun _ => rfl)
    fun r _ _ => hf r
  exact wellChained_of_rows hs hafter fun q hq => Or.inl (hbefore q hq)

/-! ### One call -/

theorem linked_contentOf : Linked s (contentOf d w data (latestOf s data)) := by
  rcases ho : latestOf s data with _ | q
  · exact ⟨fun _ => rfl, fun i hi => absurd hi (by simp [contentOf])⟩
  · obtain ⟨hq, hmatch⟩ := latestOf_some ho
    refine ⟨fun h => absurd h (by simp [contentOf]), fun i hi => ⟨q, hq, ?_, ?_, rfl⟩⟩
    · exact Option.some.inj hi
    · exact congrArg Prod.fst (matching_iff.mp hmatch).2.1

theorem wellChained_create (hs : WellChained s) (h : (createCampaignContent d w data).Returns s r t) :
    WellChained t := by
  obtain ⟨-, rfl, T, rfl, hrows⟩ := createCampaignContent_spec h
  refine wellChained_of_rows hs (fun r hr => ?_) fun q hq => ?_
  · exact ⟨_, (hrows _).mpr (Or.inl ⟨r, hr, rfl⟩), link_demote _ r⟩
  · rcases (hrows q).mp hq with ⟨p, hp, rfl⟩ | rfl
    · exact Or.inl ⟨p, hp, link_demote _ p⟩
    · exact Or.inr linked_contentOf

/-- **One call** keeps the chains. -/
theorem wellChained_step (hs : WellChained s) (e : Call) : WellChained (step s e) := by
  cases e with
  | create d w data =>
    exact Prog.settle_inv (I := WellChained) hs fun a t h => wellChained_create hs h
  | update w c i upd =>
    refine Prog.settle_inv (I := WellChained) hs fun a t h => ?_
    obtain ⟨-, T, hT, rfl⟩ := updateContent_spec h
    exact wellChained_of_modify hs hT fun _ => rfl
  | delete d w c i =>
    refine Prog.settle_inv (I := WellChained) hs fun a t h => ?_
    rcases deleteContent_spec h with rfl | ⟨T, hT, rfl⟩
    · exact hs
    · exact wellChained_of_modify hs hT fun _ => rfl

/-! ### Runs -/

theorem Reachable.wellChained (h : Reachable s) : WellChained s := by
  induction h with
  | init hempty =>
    intro p hp
    rw [hempty] at hp
    exact absurd hp List.not_mem_nil
  | call e _ ih => exact wellChained_step ih e
  | others _ hsame ih =>
    refine wellChained_of_rows ih (fun r hr => ⟨r, ?_, rfl⟩) fun q hq => Or.inl ⟨q, ?_, rfl⟩
    · rw [hsame]
      exact hr
    · rw [← hsame]
      exact hq

theorem Reachable.run (h : Reachable s) (l : List Call) : Reachable (run step s l) :=
  inv_run (fun _ e hs => hs.call e) l h

/-! ### Following the parents -/

theorem parentVersion_some (h : parentVersion s p = some q) :
    q ∈ s.campaignContents.rows ∧ p.parentVersionId = some q.id := by
  obtain ⟨i, hi, hfind⟩ := Option.bind_eq_some_iff.mp h
  have hid := List.find?_some hfind
  rw [decide_eq_true_eq] at hid
  exact ⟨List.mem_of_find?_eq_some hfind, by rw [hi, hid]⟩

theorem Linked.parentVersion_eq_none (h : Linked s p) :
    parentVersion s p = none ↔ p.parentVersionId = none := by
  constructor
  · intro hnone
    rcases hp : p.parentVersionId with _ | i
    · rfl
    · obtain ⟨q, hq, hid, -⟩ := h.parent i hp
      rw [parentVersion, hp, Option.bind_some, List.find?_eq_none] at hnone
      exact absurd (decide_eq_true hid) (hnone q hq)
  · intro hnone
    rw [parentVersion, hnone, Option.bind_none]

theorem WellChained.ranked (hs : WellChained s) :
    Ranked (parentVersion s) CampaignContent.version 1 (· ∈ s.campaignContents.rows) where
  last p hp hnone := (hs p hp).first ((hs p hp).parentVersion_eq_none.mp hnone)
  link p q hp hq := by
    obtain ⟨hmem, hparent⟩ := parentVersion_some hq
    obtain ⟨r, hr, hid, -, hv⟩ := (hs p hp).parent q.id hparent
    obtain rfl : r = q := s.campaignContents.eq_of_key_eq hr hmem hid
    exact ⟨hmem, hv⟩

theorem endsAtFirst_iff (hs : WellChained s) (hp : p ∈ s.campaignContents.rows) :
    EndsAtFirst s k p ↔ k = p.version - 1 := by
  have hiff : EndsAtFirst s k p ↔ EndsAfter (parentVersion s) k p := by
    constructor
    · rintro ⟨q, hq, hk, hnone⟩
      exact ⟨q, hk, (hs q hq).parentVersion_eq_none.mpr hnone⟩
    · rintro ⟨q, hk, hnone⟩
      have hq := (hs.ranked.rank_follow hp hk).1
      exact ⟨q, hq, hk, (hs q hq).parentVersion_eq_none.mp hnone⟩
  have hone := hs.ranked.least_le hp
  rw [hiff, hs.ranked.endsAfter_iff hp]
  omega

/-- **Version chains are well founded** in every reachable database: a row without a parent has the
number 1, the parent of any other row is there, of its campaign and the version before, and following
the parents from a row ends after one step less than its number, without repeating a row. -/
theorem chains_wellFounded (h : Reachable s) :
    (∀ p ∈ s.campaignContents.rows, Linked s p ∧ (∀ k, EndsAtFirst s k p ↔ k = p.version - 1) ∧
      NeverRepeats (parentVersion s) p) ∧
    WellFounded fun q p => p ∈ s.campaignContents.rows ∧ parentVersion s p = some q := by
  have hs := h.wellChained
  refine ⟨fun p hp => ⟨hs p hp, fun k => endsAtFirst_iff hs hp, ?_⟩, hs.ranked.wellFounded⟩
  exact hs.ranked.neverRepeats hp

/-- Three versions in English, of which the second is deleted, and a letter. -/
def posts : List Call :=
  [.create (drawsFrom 60 1 "") 10 post, .create (drawsFrom 61 2 "") 10 post,
    .create (drawsFrom 62 3 "") 10 post, .delete (drawsFrom 0 4 "") 10 30 61,
    .create (drawsFrom 63 5 "") 10 letter]

theorem chains_wellFounded_posts :
    (∀ p ∈ (run step launched posts).campaignContents.rows, Linked (run step launched posts) p ∧
      (∀ k, EndsAtFirst (run step launched posts) k p ↔ k = p.version - 1) ∧
      NeverRepeats (parentVersion (run step launched posts)) p) ∧
    WellFounded fun q p => p ∈ (run step launched posts).campaignContents.rows ∧
      parentVersion (run step launched posts) p = some q :=
  chains_wellFounded (Reachable.run (.init rfl) posts)

/-- The third version leads to the first one over the deleted row. -/
example : ((run step launched posts).campaignContents.rows.map fun p => (p.id, p.version,
    (follow (parentVersion (run step launched posts)) (p.version - 1) p).map CampaignContent.id)) =
    [(60, 1, some 60), (61, 2, some 60), (62, 3, some 60), (63, 1, some 63)] := by
  decide

end MarketingSuite.Content.VersionChains
