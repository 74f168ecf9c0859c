import MarketingSuite.Content.Requests
import MarketingSuite.Content.VersionChains
import MarketingSuite.Lib.Overlaps

/-! # Versions made at once

Requests to the content service whose statements interleave. Nothing stops two of them from finding
the same latest version, and then both make a successor of it, with the same number, and both are
current. The rows are a forest all the same, in which the current versions are those without a
successor, and such a branch comes from requests that had found the version at one time. -/

namespace MarketingSuite.Content.Branches

open MarketingSuite.Lib.Programs MarketingSuite.Lib.Tables MarketingSuite.Lib.Runs
open MarketingSuite.Lib.Transactions MarketingSuite.Lib.Overlaps
open MarketingSuite.Base.Values MarketingSuite.Base.Models MarketingSuite.Base.Schema
open MarketingSuite.Repositories.Base MarketingSuite.Content.Service
open MarketingSuite.Content.VersionChains (WellChained Linked link link_demote wellChained_of_rows)
open MarketingSuite.Content.Requests MarketingSuite.Content.CurrentVersion
open MarketingSuite.Campaigns.Service (launched)

/-! ### The forest -/

/-- **The forest**: every row is linked, and the current ones are those that no row has as its
parent. -/
structure Forest (s : Database) : Prop where
  chained : WellChained s
  current : ∀ p ∈ s.campaignContents.rows,
    p.isCurrent = true ↔ ∀ q ∈ s.campaignContents.rows, q.parentVersionId ≠ some p.id

/-- What the forest is made of. -/
def tie (p : CampaignContent) : (Uuid × Uuid × ℕ × Option Uuid) × Bool := (link p, p.isCurrent)

/-- The rows keep what the forest is made of. -/
def Unnoticed (t t' : Database) : Prop :=
  t'.campaignContents.rows.map tie = t.campaignContents.rows.map tie

/-- A version after `latest` has been added. -/
structure Added (d : Draws) (w : Uuid) (data : CampaignContentCreate)
    (latest : Option CampaignContent) (t t' : Database) : Prop where
  rows : ∀ q, q ∈ t'.campaignContents.rows ↔
    (∃ p ∈ t.campaignContents.rows, q = demote latest p) ∨ q = contentOf d w data latest
  fresh : ∀ p ∈ t.campaignContents.rows, p.id ≠ d.uuid 0

/-- The rows are still there. -/
def Kept (t t' : Database) : Prop :=
  ∀ x ∈ t.campaignContents.rows, ∃ y ∈ t'.campaignContents.rows, link y = link x

variable {s s₀ t t' : Database} {d : Draws} {w c i k : Uuid} {data : CampaignContentCreate}
  {latest : Option CampaignContent} {p q x y : CampaignContent}

theorem Kept.trans {t'' : Database} (h : Kept t t') (h' : Kept t' t'') : Kept t t'' := by
  intro x hx
  obtain ⟨y, hy, hyx⟩ := h x hx
  obtain ⟨z, hz, hzy⟩ := h' y hy
  exact ⟨z, hz, hzy.trans hyx⟩

theorem Unnoticed.symm (h : Unnoticed t t') : Unnoticed t' t := Eq.symm h

theorem Unnoticed.exists_tie (h : Unnoticed t t') (hx : x ∈ t.campaignContents.rows) :
    ∃ y ∈ t'.campaignContents.rows, tie y = tie x := by
  have hmem : tie x ∈ t.campaignContents.rows.map tie := List.mem_map_of_mem hx
  rw [← h] at hmem
  exact List.mem_map.mp hmem

theorem Unnoticed.kept (h : Unnoticed t t') : Kept t t' := by
  intro x hx
  obtain ⟨y, hy, hyx⟩ := h.exists_tie hx
  exact ⟨y, hy, congrArg Prod.fst hyx⟩

theorem Added.kept (h : Added d w data latest t t') : Kept t t' := fun x hx =>
  ⟨demote latest x, (h.rows _).mpr (Or.inl ⟨x, hx, rfl⟩), link_demote latest x⟩

theorem id_of_link (h : link p = link q) : p.id = q.id := congrArg Prod.fst h

theorem parent_of_link (h : link p = link q) : p.parentVersionId = q.parentVersionId :=
  congrArg (fun l => l.2.2.2) h

theorem tie_eq (h : tie p = tie q) : link p = link q ∧ p.isCurrent = q.isCurrent :=
  ⟨congrArg Prod.fst h, congrArg Prod.snd h⟩

/-- **What nobody notices** keeps the forest. -/
theorem forest_of_unnoticed (hs : Forest t) (h : Unnoticed t t') : Forest t' := by
  constructor
  · refine wellChained_of_rows hs.chained h.kept fun q hq => Or.inl ?_
    obtain ⟨p, hp, hpq⟩ := h.symm.exists_tie hq
    exact ⟨p, hp, (tie_eq hpq).1.symm⟩
  · intro p hp
    obtain ⟨p₀, hp₀, hpp⟩ := h.symm.exists_tie hp
    obtain ⟨hlink, hcur⟩ := tie_eq hpp
    rw [← hcur, hs.current p₀ hp₀, id_of_link hlink]
    constructor
    · intro hno q hq
      obtain ⟨q₀, hq₀, hqq⟩ := h.symm.exists_tie hq
      rw [← parent_of_link (tie_eq hqq).1]
      exact hno q₀ hq₀
    · intro hno q₀ hq₀
      obtain ⟨q, hq, hqq⟩ := h.exists_tie hq₀
      rw [← parent_of_link (tie_eq hqq).1]
      exact hno q hq

/-- The version that is built on is there, of the campaign of the request. -/
def Fit (s : Database) (data : CampaignContentCreate) (latest : Option CampaignContent) : Prop :=
  ∀ q, latest = some q →
    q.campaignId = data.campaignId ∧ ∃ p ∈ s.campaignContents.rows, link p = link q

theorem Fit.kept (h : Fit t data latest) (hk : Kept t t') : Fit t' data latest := by
  intro q hq
  obtain ⟨hc, p, hp, hpq⟩ := h q hq
  obtain ⟨p', hp', hpp⟩ := hk p hp
  exact ⟨hc, p', hp', hpp.trans hpq⟩

theorem linked_of_fit (h : Fit t data latest) : Linked t (contentOf d w data latest) := by
  rcases latest with _ | q
  · exact ⟨fun _ => rfl, fun i hi => absurd hi (by simp [contentOf])⟩
  · obtain ⟨hc, p, hp, hpq⟩ := h q rfl
    simp only [link, Prod.mk.injEq] at hpq
    obtain ⟨hid, hcamp, hv, -⟩ := hpq
    refine ⟨fun hno => absurd hno (by simp [contentOf]), fun i hi => ⟨p, hp, ?_, ?_, ?_⟩⟩
    · rw [hid]
      exact Option.some.inj hi
    · exact hcamp.trans hc
    · show q.version + 1 = p.version + 1
      rw [hv]

theorem isCurrent_demote (p : CampaignContent) :
    (demote latest p).isCurrent = true ↔
      p.isCurrent = true ∧ latest.map CampaignContent.id ≠ some p.id := by
  unfold demote
  split_ifs with hid
  · simp [notCurrent, hid]
  · simp [hid]

/-- **A new version** is a leaf, and the version that it is built on is none any more. -/
theorem forest_of_added (hs : Forest t) (hfit : Fit t data latest)
    (h : Added d w data latest t t') : Forest t' := by
  have hparent : ∀ q ∈ t.campaignContents.rows, ∀ i, q.parentVersionId = some i → i ≠ d.uuid 0 := by
    intro q hq i hi
    obtain ⟨r, hr, rfl, -⟩ := (hs.chained q hq).parent i hi
    exact h.fresh r hr
  have hbase : latest.map CampaignContent.id ≠ some (d.uuid 0) := by
    intro heq
    obtain ⟨q, rfl, hq⟩ := Option.map_eq_some_iff.mp heq
    obtain ⟨-, p, hp, hpq⟩ := hfit q rfl
    exact h.fresh p hp ((id_of_link hpq).trans hq)
  constructor
  · refine wellChained_of_rows hs.chained h.kept fun q hq => ?_
    rcases (h.rows q).mp hq with ⟨p, hp, rfl⟩ | rfl
    · exact Or.inl ⟨p, hp, link_demote latest p⟩
    · exact Or.inr (linked_of_fit hfit)
  · intro p hp
    -- the children of a row are its old ones, and the new row if it is the base
    have hchildren : ∀ i, (∀ q ∈ t'.campaignContents.rows, q.parentVersionId ≠ some i) ↔
        (∀ q ∈ t.campaignContents.rows, q.parentVersionId ≠ some i) ∧
          latest.map CampaignContent.id ≠ some i := by
      intro i
      constructor
      · intro hno
        refine ⟨fun q hq hi => ?_, fun hi => ?_⟩
        · refine hno _ ((h.rows _).mpr (Or.inl ⟨q, hq, rfl⟩)) ?_
          rw [parent_of_link (link_demote latest q)]
          exact hi
        · exact hno _ ((h.rows _).mpr (Or.inr rfl)) hi
      · rintro ⟨hno, hi⟩ q hq
        rcases (h.rows q).mp hq with ⟨q₀, hq₀, rfl⟩ | rfl
        · rw [parent_of_link (link_demote latest q₀)]
          exact hno q₀ hq₀
        · exact hi
    rw [hchildren]
    rcases (h.rows p).mp hp with ⟨p₀, hp₀, rfl⟩ | rfl
    · rw [isCurrent_demote, demote_id, hs.current p₀ hp₀]
    · refine iff_of_true rfl ⟨fun q hq hi => ?_, hbase⟩
      exact hparent q hq _ hi rfl

/-! ### What the writes of a transaction do -/

theorem rows_of_retired {u : Unit} (h : (Service.retire latest).Returns t u t') :
    ∃ T, t' = { t with campaignContents := T } ∧
      T.rows = t.campaignContents.rows.map (demote latest) := by
  rcases latest with _ | p
  · obtain ⟨-, rfl⟩ := Prog.returns_pure.mp h
    refine ⟨t'.campaignContents, rfl, ?_⟩
    rw [List.map_congr_left fun p _ => demote_none p, List.map_id']
  · unfold Service.retire at h
    obtain ⟨b, hupd, -⟩ := Prog.returns_bind_pure.mp h
    obtain ⟨-, -, -, -, -, T, hT, rfl⟩ := returns_update.mp hupd
    exact ⟨T, rfl, rows_of_retire hT⟩

theorem added_of_returns {u : Unit} {a : CampaignContent}
    (hretire : (Service.retire latest).Returns s u t)
    (hcreate : (Repositories.Base.create (contentOf d w data latest)).Returns t a t') :
    Added d w data latest s t' := by
  obtain ⟨T, rfl, hT⟩ := rows_of_retired hretire
  obtain ⟨rfl, -, T', hT', rfl⟩ := returns_create.mp hcreate
  have hins : T.insert (contentOf d w data latest) = some T' := hT'
  constructor
  · intro q
    show q ∈ T'.rows ↔ _
    rw [Table.mem_insert hins, hT, List.mem_map]
    simp only [eq_comm]
  · intro p hp
    have hmem : demote latest p ∈ T.rows := by
      rw [hT]
      exact List.mem_map_of_mem hp
    have hne := (Table.apart_of_insert hins hmem).1
    rwa [show Keyed.key (demote latest p) = p.id from demote_id _ _] at hne

theorem unnoticed_of_update {f : CampaignContent → CampaignContent} {a : CampaignContent}
    (h : (Repositories.Base.update i f).Returns t a t') (hf : ∀ r, tie (f r) = tie r) :
    Unnoticed t t' := by
  obtain ⟨-, -, -, -, -, T, hT, rfl⟩ := returns_update.mp h
  have hT : t.campaignContents.modify i f = some T := hT
  show T.rows.map tie = _
  rw [Table.modify_eq_some.mp hT, List.map_map]
  refine List.map_congr_left fun r _ => ?_
  show tie (if Keyed.key r = i then f r else r) = tie r
  split_ifs
  · exact hf r
  · rfl

/-! ### What a transaction knows -/

/-- The committed database and the transactions of the requests. -/
abbrev World (ι : Type) : Type := Lib.Transactions.World Database Exc Phase ι

/-- The version that a request builds on. -/
def baseOf : Phase → Option Uuid
  | .retire latest | .create latest | .commit latest => latest.map CampaignContent.id
  | _ => none

/-- The version that is built on fits, and had no successor at the start. -/
structure Based (s₀ s : Database) (data : CampaignContentCreate) (latest : Option CampaignContent) :
    Prop where
  fit : Fit s data latest
  leaf : ∀ q, latest = some q → ∀ x ∈ s₀.campaignContents.rows, x.parentVersionId ≠ some q.id

/-- The phases of a request, and what holds of the objects in them. -/
def Known (s₀ s : Database) : Request → Phase → Prop
  | .create _ _ _, .getCampaign => True
  | .create _ _ _, .getLatest => True
  | .create _ _ data, .retire latest => Based s₀ s data latest
  | .create _ _ data, .create latest => Based s₀ s data latest
  | .create _ _ data, .commit latest => Based s₀ s data latest
  | .update .., .getContent => True
  | .update .., .update _ => True
  | .update .., .commit latest => latest = none
  | .delete .., .getContent => True
  | .delete .., .getById _ => True
  | .delete .., .mark _ => True
  | .delete .., .commit latest => latest = none
  | .other _, .other => True
  | .other _, .commit latest => latest = none
  | _, _ => False

/-- What the commit of a request does. -/
def Result (t t' : Database) (latest : Option CampaignContent) : Request → Prop
  | .create d w data => Added d w data latest t t'
  | _ => Unnoticed t t'

/-- What a request has written in a phase. -/
def Wrote (r : Request) (q : Svc Unit) : Phase → Prop
  | .create latest => ∀ t t', q.Returns t () t' → (Service.retire latest).Returns t () t'
  | .commit latest => ∀ t t', q.Returns t () t' → Result t t' latest r
  | _ => q = pure ()

/-- The transaction of a request. -/
structure Sound (s₀ s : Database) (r : Request) (a : Session Database Exc Phase) : Prop where
  running : ∀ p, a.status = .running p → Known s₀ s r p ∧ Wrote r a.writes p
  committed : ∀ p, a.status = .committed p → (∃ latest, p = .commit latest) ∧ Known s₀ s r p

variable {same : Json → Json → Bool} {r : Request} {φ φ' : Phase} {W : Svc Unit}
  {f : Database → Except Exc Phase} {a : Session Database Exc Phase}

theorem Based.kept (h : Based s₀ s data latest) (hk : Kept s t) : Based s₀ t data latest :=
  ⟨h.fit.kept hk, h.leaf⟩

theorem Known.kept (h : Known s₀ s r φ) (hk : Kept s t) : Known s₀ t r φ := by
  cases r with
  | create d w data =>
    cases φ with
    | retire latest => exact Based.kept h hk
    | create latest => exact Based.kept h hk
    | commit latest => exact Based.kept h hk
    | _ => exact h
  | update w c i data => cases φ <;> exact h
  | delete d w c i => cases φ <;> exact h
  | other body => cases φ <;> exact h

theorem Sound.kept (h : Sound s₀ s r a) (hk : Kept s t) : Sound s₀ t r a where
  running φ hφ := ⟨(h.running φ hφ).1.kept hk, (h.running φ hφ).2⟩
  committed φ hφ := ⟨(h.committed φ hφ).1, (h.committed φ hφ).2.kept hk⟩

theorem known_first (s₀ s : Database) (r : Request) :
    Known s₀ s r r.first ∧ Wrote r (pure ()) r.first := by
  cases r with
  | create d w data => exact ⟨trivial, rfl⟩
  | update w c i data => exact ⟨trivial, rfl⟩
  | delete d w c i => exact ⟨trivial, rfl⟩
  | other body => exact ⟨trivial, rfl⟩

theorem based_of_latest (hs : Forest s) (hk : Kept s₀ s) : Based s₀ s data (latestOf s data) := by
  refine ⟨fun q hq => ?_, fun q hq x hx hparent => ?_⟩
  · obtain ⟨hmem, hmatch⟩ := latestOf_some hq
    have hmatch' := hmatch
    simp only [matching, Bool.and_eq_true, decide_eq_true_eq] at hmatch'
    exact ⟨hmatch'.1.1.1.1, q, hmem, rfl⟩
  · obtain ⟨hmem, hmatch⟩ := latestOf_some hq
    simp only [matching, Bool.and_eq_true, decide_eq_true_eq] at hmatch
    obtain ⟨y, hy, hyx⟩ := hk x hx
    refine (hs.current q hmem).mp hmatch.1.2 y hy ?_
    rw [parent_of_link hyx]
    exact hparent

/-- **A read keeps what is known**, and takes hold of a version only if that is a leaf. -/
theorem known_read (hs : Forest s) (hk : Kept s₀ s) (hknown : Known s₀ s r φ)
    (hn : r.next same φ = .read f) (hf : f s = .ok φ') :
    Known s₀ s r φ' ∧ (∀ q, q = pure () → Wrote r q φ') ∧
      ∀ i, baseOf φ' = some i → ∃ p ∈ s.campaignContents.rows, p.id = i ∧ p.isCurrent = true := by
  cases r with
  | create d w data =>
    cases φ with
    | getCampaign =>
      cases hn
      obtain ⟨_, -, rfl⟩ := Prog.returns_bind_pure.mp (Prog.returns_of_fst hf)
      exact ⟨trivial, fun q hq => hq, fun i hi => absurd hi (by simp [baseOf])⟩
    | getLatest =>
      cases hn
      obtain ⟨latest, hlatest, rfl⟩ := Prog.returns_bind_pure.mp (Prog.returns_of_fst hf)
      obtain ⟨rfl, -⟩ := returns_getLatestVersion.mp hlatest
      refine ⟨based_of_latest hs hk, fun q hq => hq, fun i hi => ?_⟩
      obtain ⟨q, hq, rfl⟩ := Option.map_eq_some_iff.mp hi
      obtain ⟨hmem, hmatch⟩ := latestOf_some hq
      simp only [matching, Bool.and_eq_true, decide_eq_true_eq] at hmatch
      exact ⟨q, hmem, rfl, hmatch.1.2⟩
    | _ => cases hn
  | update w c i data =>
    cases φ with
    | getContent =>
      cases hn
      obtain ⟨_, -, rfl⟩ := Prog.returns_bind_pure.mp (Prog.returns_of_fst hf)
      exact ⟨trivial, fun q hq => hq, fun i hi => absurd hi (by simp [baseOf])⟩
    | _ => cases hn
  | delete d w c i =>
    cases φ with
    | getContent =>
      cases hn
      obtain ⟨_, -, rfl⟩ := Prog.returns_bind_pure.mp (Prog.returns_of_fst hf)
      exact ⟨trivial, fun q hq => hq, fun i hi => absurd hi (by simp [baseOf])⟩
    | getById content =>
      cases hn
      have hret := Prog.returns_of_fst hf
      rw [Prog.returns_bind] at hret
      obtain ⟨found, t, -, hret⟩ := hret
      obtain ⟨_, -, rfl⟩ := Prog.returns_bind_pure.mp hret
      exact ⟨trivial, fun q hq => hq, fun i hi => absurd hi (by simp [baseOf])⟩
    | _ => cases hn
  | other body => cases φ <;> cases hn

theorem writes_eq_pure (hn : r.next same φ = .read f) (hwrote : Wrote r W φ)
    (hknown : Known s₀ s r φ) : W = pure () := by
  cases φ with
  | create latest =>
    cases r with
    | create d w data => cases hn
    | _ => exact hknown.elim
  | commit latest => cases r <;> cases hn
  | _ => exact hwrote

/-- **A write** keeps the version that it builds on, and does what the commit is to do. -/
theorem known_write {q : Svc Unit} (hknown : Known s₀ s r φ) (hwrote : Wrote r W φ)
    (hn : r.next same φ = .write q φ') :
    Known s₀ s r φ' ∧ Wrote r (W >>= fun _ => q) φ' ∧ baseOf φ' = baseOf φ := by
  cases r with
  | create d w data =>
    cases φ with
    | retire latest =>
      cases hn
      obtain rfl : W = pure () := hwrote
      refine ⟨hknown, fun t t' h => ?_, rfl⟩
      rwa [Prog.pure_bind] at h
    | create latest =>
      cases hn
      refine ⟨hknown, fun t t' h => ?_, rfl⟩
      obtain ⟨⟨⟩, t₁, h₁, h₂⟩ := Prog.returns_bind.mp h
      obtain ⟨b, hb, -⟩ := Prog.returns_bind_pure.mp h₂
      exact added_of_returns (hwrote t t₁ h₁) hb
    | _ => cases hn
  | update w c i data =>
    cases φ with
    | update content =>
      cases hn
      obtain rfl : W = pure () := hwrote
      refine ⟨rfl, fun t t' h => ?_, rfl⟩
      rw [Prog.pure_bind, Prog.returns_bind] at h
      obtain ⟨_, t₁, hreq, h⟩ := h
      obtain ⟨-, rfl⟩ := Prog.returns_require.mp hreq
      obtain ⟨b, hb, -⟩ := Prog.returns_bind_pure.mp h
      exact unnoticed_of_update hb fun _ => rfl
    | _ => cases hn
  | delete d w c i =>
    cases φ with
    | mark content =>
      cases hn
      obtain rfl : W = pure () := hwrote
      refine ⟨rfl, fun t t' h => ?_, rfl⟩
      rw [Prog.pure_bind] at h
      obtain ⟨b, hb, -⟩ := Prog.returns_bind_pure.mp h
      exact unnoticed_of_update hb fun _ => rfl
    | _ => cases hn
  | other body =>
    cases φ with
    | other =>
      cases hn
      obtain rfl : W = pure () := hwrote
      refine ⟨rfl, fun t t' h => ?_, rfl⟩
      rw [Prog.pure_bind] at h
      have hsame : t'.campaignContents = t.campaignContents := body.property.returns h
      show t'.campaignContents.rows.map tie = _
      rw [hsame]
    | _ => cases hn

theorem commit_of_next (hknown : Known s₀ s r φ) (hn : r.next same φ = .commit) :
    ∃ latest, φ = .commit latest := by
  cases φ with
  | commit latest => exact ⟨latest, rfl⟩
  | _ => cases r <;> first | exact hknown.elim | cases hn

/-! ### The invariant -/

section Invariant

variable {ι : Type} (r : ι → Request)

/-- The row is the version that the transaction has committed. -/
def Made (W : World ι) (i : ι) (x : CampaignContent) : Prop :=
  ∃ d w data latest, r i = .create d w data ∧
    (W.sessions i).status = .committed (.commit latest) ∧
    x.id = d.uuid 0 ∧ x.parentVersionId = latest.map CampaignContent.id

/-- The transaction has committed a new version. -/
def HasMade (W : World ι) (i : ι) : Prop :=
  ∃ d w data, r i = .create d w data ∧ ∃ φ, (W.sessions i).status = .committed φ

/-- **The invariant**: the rows are a forest, made of the rows of the start and of one for each
transaction that has committed a new version. -/
structure Inv (s₀ : Database) (W : World ι) : Prop where
  forest : Forest W.db
  old : Kept s₀ W.db
  sound : ∀ i, Sound s₀ W.db (r i) (W.sessions i)
  made : ∀ i, HasMade r W i → ∃ x ∈ W.db.campaignContents.rows, Made r W i x
  origin : ∀ x ∈ W.db.campaignContents.rows,
    (∃ x₀ ∈ s₀.campaignContents.rows, x₀.id = x.id) ∨ ∃ i, Made r W i x
  apart : ∀ i j x, Made r W i x → Made r W j x → i = j

end Invariant

/-- All requests begin. -/
abbrev begin {ι : Type} (r : ι → Request) (s : Database) : World ι := begun (fun i => (r i).first) s

/-- The next statement of one of the requests. -/
abbrev requestStep {ι : Type} [DecidableEq ι] (same : Json → Json → Bool) (r : ι → Request) :
    World ι → ι → World ι := step fun i => (r i).next same

variable {ι : Type} {r : ι → Request} {W : World ι} {i j : ι}

theorem inv_begin (r : ι → Request) (hs : Forest s₀) : Inv r s₀ (begin r s₀) where
  forest := hs
  old x hx := ⟨x, hx, rfl⟩
  sound i := by
    refine ⟨fun φ hφ => ?_, fun φ hφ => by cases hφ⟩
    obtain rfl : (r i).first = φ := Status.running.inj hφ
    exact known_first s₀ s₀ (r i)
  made i := by
    rintro ⟨d, w, data, -, φ, hφ⟩
    cases hφ
  origin x hx := Or.inl ⟨x, hx, rfl⟩
  apart i j x := by
    rintro ⟨d, w, data, latest, -, hφ, -⟩
    cases hφ

theorem made_congr {W' : World ι} (h : (W'.sessions i).status = (W.sessions i).status) :
    Made r W' i x ↔ Made r W i x := by
  unfold Made
  rw [h]

theorem Made.of_link (h : Made r W i x) (hxy : link x = link y) : Made r W i y := by
  obtain ⟨d, w, data, latest, hr, hφ, hid, hparent⟩ := h
  exact ⟨d, w, data, latest, hr, hφ, (id_of_link hxy).symm.trans hid,
    (parent_of_link hxy).symm.trans hparent⟩

/-! ### Branches -/

/-- The transaction builds on the version `k`, and has not committed. -/
def Holds (k : Uuid) (W : World ι) (i : ι) : Prop :=
  ∃ φ, (W.sessions i).status = .running φ ∧ baseOf φ = some k

/-- The transaction has committed a version after `k`. -/
def Built (k : Uuid) (W : World ι) (i : ι) : Prop :=
  ∃ φ, (W.sessions i).status = .committed φ ∧ baseOf φ = some k

/-- Whoever has built on a version has made a row after it, and the start had none. -/
theorem Inv.row_of_built (hI : Inv r s₀ W) (h : Built k W i) :
    (∃ x ∈ W.db.campaignContents.rows, Made r W i x ∧ x.parentVersionId = some k) ∧
      ∀ x ∈ s₀.campaignContents.rows, x.parentVersionId ≠ some k := by
  obtain ⟨φ, hφ, hbase⟩ := h
  obtain ⟨⟨latest, rfl⟩, hknown⟩ := (hI.sound i).committed φ hφ
  obtain ⟨q, hq, hid⟩ := Option.map_eq_some_iff.mp hbase
  rcases hr : r i with ⟨d, w, data⟩ | ⟨w, c, j, data⟩ | ⟨d, w, c, j⟩ | body
  · rw [hr] at hknown
    have hleaf := Based.leaf hknown q hq
    rw [hid] at hleaf
    obtain ⟨x, hx, hxm⟩ := hI.made i ⟨d, w, data, hr, _, hφ⟩
    refine ⟨⟨x, hx, hxm, ?_⟩, hleaf⟩
    obtain ⟨-, -, -, latest', -, hφ', -, hparent⟩ := hxm
    rw [hφ] at hφ'
    obtain rfl := Phase.commit.inj (Status.committed.inj hφ')
    rw [hparent]
    exact hbase
  all_goals
    rw [hr] at hknown
    have hnone : latest = none := hknown
    rw [hnone] at hq
    cases hq

/-- A row that a transaction has made after `k` says that it has built on `k`. -/
theorem Made.built (h : Made r W i x) (hk : x.parentVersionId = some k) : Built k W i := by
  obtain ⟨d, w, data, latest, -, hφ, -, hparent⟩ := h
  exact ⟨_, hφ, hparent.symm.trans hk⟩

/-- After the run there are two versions after `k` that were not both there at the start. -/
def Branched (k : Uuid) (s₀ s : Database) : Prop :=
  ∃ x ∈ s.campaignContents.rows, ∃ y ∈ s.campaignContents.rows, x.id ≠ y.id ∧
    x.parentVersionId = some k ∧ y.parentVersionId = some k ∧
    ¬ ((∃ x₀ ∈ s₀.campaignContents.rows, x₀.id = x.id) ∧
      ∃ y₀ ∈ s₀.campaignContents.rows, y₀.id = y.id)

theorem Inv.parent_of_old (hI : Inv r s₀ W) (hx : x ∈ W.db.campaignContents.rows)
    (hy : y ∈ s₀.campaignContents.rows) (hid : y.id = x.id) :
    y.parentVersionId = x.parentVersionId := by
  obtain ⟨z, hz, hzy⟩ := hI.old y hy
  obtain rfl : z = x :=
    W.db.campaignContents.eq_of_key_eq hz hx ((id_of_link hzy).trans hid)
  exact (parent_of_link hzy).symm

theorem Inv.branched_iff (hI : Inv r s₀ W) :
    Branched k s₀ W.db ↔ ∃ i j, i ≠ j ∧ Built k W i ∧ Built k W j := by
  have hold : ∀ x ∈ W.db.campaignContents.rows, x.parentVersionId = some k →
      (∃ i, Built k W i) → ¬ ∃ x₀ ∈ s₀.campaignContents.rows, x₀.id = x.id := by
    rintro x hx hparent ⟨i, hi⟩ ⟨x₀, hx₀, hid⟩
    exact (hI.row_of_built hi).2 x₀ hx₀ ((hI.parent_of_old hx hx₀ hid).trans hparent)
  constructor
  · rintro ⟨x, hx, y, hy, hne, hxk, hyk, hnew⟩
    have hbuilt : ∃ i, Built k W i := by
      rcases hI.origin x hx with hxo | ⟨i, hi⟩
      · rcases hI.origin y hy with hyo | ⟨j, hj⟩
        · exact absurd ⟨hxo, hyo⟩ hnew
        · exact ⟨j, hj.built hyk⟩
      · exact ⟨i, hi.built hxk⟩
    obtain ⟨i, hi⟩ := (hI.origin x hx).resolve_left (hold x hx hxk hbuilt)
    obtain ⟨j, hj⟩ := (hI.origin y hy).resolve_left (hold y hy hyk hbuilt)
    refine ⟨i, j, ?_, hi.built hxk, hj.built hyk⟩
    rintro rfl
    obtain ⟨d, w, data, l, hr, -, hid, -⟩ := hi
    obtain ⟨d', w', data', l', hr', -, hid', -⟩ := hj
    obtain ⟨rfl, -, -⟩ := Request.create.inj (hr.symm.trans hr')
    exact hne (hid.trans hid'.symm)
  · rintro ⟨i, j, hij, hi, hj⟩
    obtain ⟨⟨x, hx, hxm, hxk⟩, -⟩ := hI.row_of_built hi
    obtain ⟨⟨y, hy, hym, hyk⟩, -⟩ := hI.row_of_built hj
    refine ⟨x, hx, y, hy, fun hid => hij ?_, hxk, hyk, fun hboth => ?_⟩
    · obtain rfl := W.db.campaignContents.eq_of_key_eq hx hy hid
      exact hI.apart i j x hxm hym
    · exact hold x hx hxk ⟨i, hi⟩ hboth.1

/-! ### One statement -/

variable [DecidableEq ι]

theorem inv_of_running {a : Session Database Exc Phase} (hI : Inv r s₀ W)
    (ha : Sound s₀ W.db (r i) a) (hbefore : ∀ φ, (W.sessions i).status ≠ .committed φ)
    (hafter : ∀ φ, a.status ≠ .committed φ) :
    Inv r s₀ ⟨W.db, Function.update W.sessions i a⟩ := by
  have hmade : ∀ j x, Made r ⟨W.db, Function.update W.sessions i a⟩ j x ↔ Made r W j x := by
    intro j x
    by_cases hj : j = i
    · subst hj
      unfold Made
      simp only [Function.update_self]
      exact ⟨fun ⟨_, _, _, _, _, h, _⟩ => absurd h (hafter _),
        fun ⟨_, _, _, _, _, h, _⟩ => absurd h (hbefore _)⟩
    · exact made_congr (by simp [hj])
  refine ⟨hI.forest, hI.old, fun j => ?_, fun j hj => ?_, fun x hx => ?_, fun j j' x h h' => ?_⟩
  · by_cases hj : j = i
    · subst hj; simpa using ha
    · simpa [hj] using hI.sound j
  · obtain ⟨d, w, data, hr, φ, hφ⟩ := hj
    have hne : j ≠ i := by
      rintro rfl
      exact hafter φ (by simpa using hφ)
    obtain ⟨x, hx, hxm⟩ := hI.made j ⟨d, w, data, hr, φ, by simpa [hne] using hφ⟩
    exact ⟨x, hx, (hmade j x).mpr hxm⟩
  · exact (hI.origin x hx).imp_right fun ⟨j, hj⟩ => ⟨j, (hmade j x).mpr hj⟩
  · exact hI.apart j j' x ((hmade j x).mp h) ((hmade j' x).mp h')

theorem result_spec {r : Request} (h : Result t t' latest r) :
    Kept t t' ∧
      (∀ x ∈ t'.campaignContents.rows, (∃ p ∈ t.campaignContents.rows, link p = link x) ∨
        ∃ d w data, r = .create d w data ∧ x = contentOf d w data latest) ∧
      ∀ d w data, r = .create d w data → contentOf d w data latest ∈ t'.campaignContents.rows ∧
        ∀ p ∈ t.campaignContents.rows, p.id ≠ d.uuid 0 := by
  have hother : Unnoticed t t' → Kept t t' ∧
      ∀ x ∈ t'.campaignContents.rows, ∃ p ∈ t.campaignContents.rows, link p = link x := by
    intro h
    refine ⟨h.kept, fun x hx => ?_⟩
    obtain ⟨p, hp, hpx⟩ := h.symm.exists_tie hx
    exact ⟨p, hp, (tie_eq hpx).1⟩
  cases r with
  | create d w data =>
    have h : Added d w data latest t t' := h
    refine ⟨h.kept, fun x hx => ?_, fun d' w' data' heq => ?_⟩
    · rcases (h.rows x).mp hx with ⟨p, hp, rfl⟩ | rfl
      · exact Or.inl ⟨p, hp, (link_demote latest p).symm⟩
      · exact Or.inr ⟨d, w, data, rfl, rfl⟩
    · obtain ⟨rfl, rfl, rfl⟩ := Request.create.inj heq
      exact ⟨(h.rows _).mpr (Or.inr rfl), h.fresh⟩
  | update w c i data =>
    obtain ⟨hk, hrows⟩ := hother h
    exact ⟨hk, fun x hx => Or.inl (hrows x hx), fun _ _ _ heq => by cases heq⟩
  | delete d w c i =>
    obtain ⟨hk, hrows⟩ := hother h
    exact ⟨hk, fun x hx => Or.inl (hrows x hx), fun _ _ _ heq => by cases heq⟩
  | other body =>
    obtain ⟨hk, hrows⟩ := hother h
    exact ⟨hk, fun x hx => Or.inl (hrows x hx), fun _ _ _ heq => by cases heq⟩

theorem forest_of_result {r : Request} (hs : Forest t) (hknown : Known s₀ t r (.commit latest))
    (h : Result t t' latest r) : Forest t' := by
  cases r with
  | create d w data => exact forest_of_added hs (Based.fit hknown) h
  | update w c i data => exact forest_of_unnoticed hs h
  | delete d w c i => exact forest_of_unnoticed hs h
  | other body => exact forest_of_unnoticed hs h

/-- **A commit** keeps the invariant. -/
theorem inv_of_committed (hI : Inv r s₀ W)
    (hφ : (W.sessions i).status = .running (.commit latest)) (hres : Result W.db t' latest (r i)) :
    Inv r s₀ ⟨t', Function.update W.sessions i
      { W.sessions i with status := .committed (.commit latest) }⟩ := by
  obtain ⟨hk, hrows, hnew⟩ := result_spec hres
  have hknown := ((hI.sound i).running _ hφ).1
  generalize hW : (⟨t', Function.update W.sessions i
      { W.sessions i with status := .committed (.commit latest) }⟩ : World ι) = W'
  have hdb : W'.db = t' := by rw [← hW]
  have hself : (W'.sessions i).status = .committed (.commit latest) := by simp [← hW]
  have hne : ∀ j, j ≠ i → W'.sessions j = W.sessions j := fun j hj => by simp [← hW, hj]
  have hbefore : ∀ x, ¬ Made r W i x := by
    rintro x ⟨d, w, data, latest', -, hc, -⟩
    rw [hφ] at hc
    cases hc
  -- the others have made what they had made
  have hothers : ∀ j x, j ≠ i → (Made r W' j x ↔ Made r W j x) := fun j x hj =>
    made_congr (by rw [hne j hj])
  have hmine : ∀ d w data, r i = .create d w data → Made r W' i (contentOf d w data latest) :=
    fun d w data hr => ⟨d, w, data, latest, hr, hself, rfl, rfl⟩
  have hapart : ∀ j x, j ≠ i → Made r W' j x → ¬ Made r W' i x := by
    rintro j x hj hjx ⟨d, w, data, latest', hr, -, hid, -⟩
    rw [hothers j x hj] at hjx
    obtain ⟨d', w', data', latest'', hr', hφ', hid', -⟩ := hjx
    obtain ⟨y, hy, d'', w'', data'', l, hr'', -, hid'', -⟩ := hI.made j ⟨d', w', data', hr', _, hφ'⟩
    obtain ⟨rfl, -, -⟩ := Request.create.inj (hr'.symm.trans hr'')
    exact (hnew d w data hr).2 y hy (hid''.trans (hid'.symm.trans hid))
  refine ⟨?_, ?_, fun j => ?_, fun j hj => ?_, fun x hx => ?_, fun j j' x h h' => ?_⟩
  · rw [hdb]
    exact forest_of_result hI.forest hknown hres
  · rw [hdb]
    exact hI.old.trans hk
  · rw [hdb]
    by_cases hj : j = i
    · subst hj
      refine ⟨fun φ h => ?_, fun φ h => ?_⟩
      · rw [hself] at h
        cases h
      · rw [hself] at h
        obtain rfl := Status.committed.inj h
        exact ⟨⟨latest, rfl⟩, hknown.kept hk⟩
    · rw [hne j hj]
      exact (hI.sound j).kept hk
  · obtain ⟨d, w, data, hr, φ, hc⟩ := hj
    by_cases hj : j = i
    · subst hj
      exact ⟨_, hdb ▸ (hnew d w data hr).1, hmine d w data hr⟩
    · rw [hne j hj] at hc
      obtain ⟨x, hx, hxm⟩ := hI.made j ⟨d, w, data, hr, φ, hc⟩
      obtain ⟨y, hy, hyx⟩ := hk x hx
      exact ⟨y, hdb ▸ hy, ((hothers j x hj).mpr hxm).of_link hyx.symm⟩
  · rw [hdb] at hx
    rcases hrows x hx with ⟨p, hp, hpx⟩ | ⟨d, w, data, hr, rfl⟩
    · rcases hI.origin p hp with ⟨x₀, hx₀, hid⟩ | ⟨j, hj⟩
      · exact Or.inl ⟨x₀, hx₀, hid.trans (id_of_link hpx)⟩
      · have hji : j ≠ i := by
          rintro rfl
          exact hbefore p hj
        exact Or.inr ⟨j, ((hothers j p hji).mpr hj).of_link hpx⟩
    · exact Or.inr ⟨i, hmine d w data hr⟩
  · by_cases hj : j = i
    · by_cases hj' : j' = i
      · exact hj.trans hj'.symm
      · subst hj
        exact absurd h (hapart j' x hj' h')
    · by_cases hj' : j' = i
      · subst hj'
        exact absurd h' (hapart j x hj h)
      · exact hI.apart j j' x ((hothers j x hj).mp h) ((hothers j' x hj').mp h')

theorem effect_requestStep (same : Json → Json → Bool) (r : ι → Request) (W : World ι) (i : ι) :
    ∃ a db, Session.Effect ((r i).next same) W.db (W.sessions i) (a, db) ∧
      requestStep same r W i = ⟨db, Function.update W.sessions i a⟩ :=
  exists_effect (fun i => (r i).next same) W i

/-- **One statement** of any request keeps the invariant. -/
theorem inv_step (same : Json → Json → Bool) (hI : Inv r s₀ W) (i : ι) :
    Inv r s₀ (requestStep same r W i) := by
  have hsound := hI.sound i
  obtain ⟨a, db, heffect, hstep⟩ := effect_requestStep same r W i
  rw [hstep]
  cases heffect with
  | stopped h =>
    rw [Function.update_eq_self]
    exact hI
  | @read φ φ' f hφ hn hf =>
    obtain ⟨hknown, hwrote⟩ := hsound.running φ hφ
    have hwrites := writes_eq_pure hn hwrote hknown
    rw [Session.view_of_unwritten hwrites] at hf
    obtain ⟨hknown', hwrote', -⟩ := known_read hI.forest hI.old hknown hn hf
    refine inv_of_running hI ⟨fun q hq => ?_, fun q hq => by cases hq⟩
      (fun q hq => by rw [hφ] at hq; cases hq) (fun q hq => by cases hq)
    obtain rfl : φ' = q := Status.running.inj hq
    exact ⟨hknown', hwrote' _ hwrites⟩
  | @write φ φ' q v hφ hn hq =>
    obtain ⟨hknown, hwrote⟩ := hsound.running φ hφ
    obtain ⟨hknown', hwrote', -⟩ := known_write hknown hwrote hn
    refine inv_of_running hI ⟨fun q hq => ?_, fun q hq => by cases hq⟩
      (fun q hq => by rw [hφ] at hq; cases hq) (fun q hq => by cases hq)
    obtain rfl : φ' = q := Status.running.inj hq
    exact ⟨hknown', hwrote'⟩
  | @committed φ s' hφ hn hw =>
    obtain ⟨hknown, hwrote⟩ := hsound.running φ hφ
    obtain ⟨latest, rfl⟩ := commit_of_next hknown hn
    exact inv_of_committed hI hφ (hwrote _ _ hw)
  | @failed φ e hφ =>
    exact inv_of_running hI ⟨fun q hq => (by cases hq), fun q hq => by cases hq⟩
      (fun q hq => by rw [hφ] at hq; cases hq) (fun q hq => by cases hq)

/-- A request that no statement of another one interrupts is the call of the service. -/
theorem run_one (h : ∀ a b, same a b = true → a = b) (r : ι → Request) (i : ι) (s : Database) :
    (run (requestStep same r) (begin r s) (List.replicate 5 i)).db = (r i).serve.settle s := by
  have halone : (run (requestStep same r) (begin r s) (List.replicate 5 i)).db =
      (solo ((r i).next same) 4 (r i).first).settle s :=
    run_alone (n := 4) (fun i => (r i).first) s fun _ _ hret => Request.solo_returns_commit h hret
  rw [halone, Request.serve_eq_solo h]
  rcases (solo ((r i).next same) 4 (r i).first).returns_or_raises s with ⟨φ, v, hret⟩ | ⟨e, v, hret⟩
  · rw [Prog.settle_of_returns hret,
      Prog.settle_of_returns (Prog.returns_bind_pure.mpr ⟨φ, hret, rfl⟩)]
  · rw [Prog.settle_of_raises hret, Prog.settle_of_raises (Prog.raises_bind.mpr (Or.inl hret))]

/-! ### Runs -/

/-- The state after the statements. -/
abbrev after (same : Json → Json → Bool) (r : ι → Request) (s₀ : Database) (l : List ι) : World ι :=
  run (requestStep same r) (begin r s₀) l

theorem inv_after (same : Json → Json → Bool) (r : ι → Request) (hs : Forest s₀) (l : List ι) :
    Inv r s₀ (after same r s₀ l) :=
  inv_run (I := Inv r s₀) (fun _ i hI => inv_step same hI i) l (inv_begin r hs)

/-- **Nobody takes hold** of a version that somebody has built on. -/
theorem claimed (same : Json → Json → Bool) (r : ι → Request) (s₀ : Database) (k : Uuid) :
    Claimed (requestStep same r) (Holds k) (Built k) (Inv r s₀) where
  inv _ i hI := inv_step same hI i
  holds_of_ne W i j hj := by
    unfold Holds
    rw [step_sessions_of_ne hj]
  done_of_ne W i j hj := by
    unfold Built
    rw [step_sessions_of_ne hj]
  self W i hI h := by
    have hsound := hI.sound i
    obtain ⟨a, db, heffect, hstep⟩ := effect_requestStep same r W i
    have hself : (requestStep same r W i).sessions i = a := by rw [hstep]; simp
    unfold Holds Built at h ⊢
    rw [hself] at h ⊢
    cases heffect with
    | stopped hstop => exact Or.inl h
    | @read φ φ' f hφ hn hf =>
      obtain ⟨hknown, hwrote⟩ := hsound.running φ hφ
      rw [Session.view_of_unwritten (writes_eq_pure hn hwrote hknown)] at hf
      obtain ⟨-, -, hleaf⟩ := known_read hI.forest hI.old hknown hn hf
      rcases h with h | ⟨q, hq, -⟩
      · refine Or.inr ⟨h, fun j hj => ?_⟩
        obtain ⟨q, hq, hbase⟩ := h
        obtain rfl : φ' = q := Status.running.inj hq
        obtain ⟨p, hp, hid, hcur⟩ := hleaf k hbase
        obtain ⟨⟨x, hx, -, hparent⟩, -⟩ := hI.row_of_built hj
        exact (hI.forest.current p hp).mp hcur x hx (by rw [hparent, hid])
      · cases hq
    | @write φ φ' q v hφ hn hq =>
      obtain ⟨hknown, hwrote⟩ := hsound.running φ hφ
      obtain ⟨-, -, hsame⟩ := known_write hknown hwrote hn
      rcases h with ⟨q, hq, hbase⟩ | ⟨q, hq, -⟩
      · obtain rfl : φ' = q := Status.running.inj hq
        exact Or.inl (Or.inl ⟨φ, hφ, hsame.symm.trans hbase⟩)
      · cases hq
    | @committed φ s' hφ hn hw =>
      rcases h with ⟨q, hq, -⟩ | ⟨q, hq, hbase⟩
      · cases hq
      · obtain rfl : φ = q := Status.committed.inj hq
        exact Or.inl (Or.inl ⟨φ, hφ, hbase⟩)
    | @failed φ e hφ =>
      rcases h with ⟨q, hq, -⟩ | ⟨q, hq, -⟩
      · cases hq
      · cases hq

/-- **Branches are overlaps.** Whatever requests to contents there are, and however their statements
interleave: the rows stay a forest whose current versions are the ones without a successor; whoever
has committed a new version has its row; a version gets two successors exactly if two requests have
committed one each; and two that did had both found that version before either committed. -/
theorem branches_are_overlaps (same : Json → Json → Bool) (r : ι → Request) (hs : Forest s₀)
    (l : List ι) :
    Forest (after same r s₀ l).db ∧
      (∀ i, HasMade r (after same r s₀ l) i →
        ∃ x ∈ (after same r s₀ l).db.campaignContents.rows, Made r (after same r s₀ l) i x) ∧
      ∀ k, (Branched k s₀ (after same r s₀ l).db ↔ ∃ i j, i ≠ j ∧
          Built k (after same r s₀ l) i ∧ Built k (after same r s₀ l) j) ∧
        ∀ i j, i ≠ j → Built k (after same r s₀ l) i → Built k (after same r s₀ l) j →
          Overlapped (requestStep same r) (Holds k) (begin r s₀) l i j := by
  have hI := inv_after same r hs l
  have hnone : ∀ k i, ¬ (Holds k (begin r s₀) i ∨ Built k (begin r s₀) i) := by
    rintro k i (⟨φ, hφ, hbase⟩ | ⟨φ, hφ, -⟩)
    · obtain rfl : (r i).first = φ := Status.running.inj hφ
      cases hr : r i <;> rw [hr] at hbase <;> cases hbase
    · cases hφ
  refine ⟨hI.forest, hI.made, fun k => ⟨hI.branched_iff, fun i j hij hi hj => ?_⟩⟩
  exact overlapped_of_claimed (claimed same r s₀ k) (inv_begin r hs) (hnone k) l i j hij
    (Or.inr hi) (Or.inr hj)

/-- Three new versions of the post of the campaign 30. -/
def posts : Fin 3 → Request := fun n => .create (drawsFrom (60 + n) n "") 10 post

/-- The first one comes alone; the two others find its row before either of them writes. -/
def together : List (Fin 3) := [0, 0, 0, 0, 0, 1, 1, 2, 2, 1, 1, 1, 2, 2, 2]

/-- Three new versions in a campaign without contents. -/
theorem branches_are_overlaps_posts :
    Forest (after (fun _ _ => false) posts launched together).db ∧
      (∀ i, HasMade posts (after (fun _ _ => false) posts launched together) i →
        ∃ x ∈ (after (fun _ _ => false) posts launched together).db.campaignContents.rows,
          Made posts (after (fun _ _ => false) posts launched together) i x) ∧
      ∀ k, (Branched k launched (after (fun _ _ => false) posts launched together).db ↔
          ∃ i j, i ≠ j ∧ Built k (after (fun _ _ => false) posts launched together) i ∧
            Built k (after (fun _ _ => false) posts launched together) j) ∧
        ∀ i j, i ≠ j → Built k (after (fun _ _ => false) posts launched together) i →
          Built k (after (fun _ _ => false) posts launched together) j →
            Overlapped (requestStep (fun _ _ => false) posts) (Holds k) (begin posts launched)
              together i j :=
  branches_are_overlaps _ posts ⟨fun _ hp => absurd hp List.not_mem_nil,
    fun _ hp => absurd hp List.not_mem_nil⟩ together

/-- Two current versions with the number 2. -/
example : (after (fun _ _ => false) posts launched together).db.campaignContents.rows.map (fun p =>
      (p.id, p.version, p.parentVersionId, p.isCurrent)) =
    [(60, 1, none, false), (61, 2, some 60, true), (62, 2, some 60, true)] := by
  decide

end MarketingSuite.Content.Branches
