import MarketingSuite.Campaigns.Service
import MarketingSuite.Lib.Patterns

/-! # The filters of the campaign list

`get_campaigns` of `app/services/campaign.py` asks one of three queries: a search leaves the status
aside. And the text that is searched for is put into a pattern of `ILIKE` as it stands, with the
wildcards and the escapes that it has. -/

namespace MarketingSuite.Campaigns.Filters

open MarketingSuite.Lib.Programs MarketingSuite.Lib.Tables MarketingSuite.Lib.Patterns
open MarketingSuite.Base.Values MarketingSuite.Base.Models MarketingSuite.Base.Schema
open MarketingSuite.Repositories.Base MarketingSuite.Campaigns.Service

/-- The wildcards of `LIKE`, and its escape. -/
def sqlWild : Wild Char where
  any := '%'
  one := '_'
  escape := '\\'
  any_ne_one := by decide
  any_ne_escape := by decide
  one_ne_escape := by decide

/-- `text ILIKE pattern`, for a database that makes characters equal as `F` does. -/
def sqlIlike (F : Folding sqlWild) (text pattern : String) : Bool :=
  (ilike F pattern.toList text.toList).getD false

/-- The text `q` occurs in one of the three texts of a campaign, without regard to case. -/
def Mentions (F : Folding sqlWild) (q : String) (c : Campaign) : Prop :=
  Occurs F q.toList c.campaignName.toList ∨
    (∃ t, c.description = some t ∧ Occurs F q.toList t.toList) ∨
    ∃ t, c.objective = some t ∧ Occurs F q.toList t.toList

/-- The campaign is one of the workspace, not deleted, and satisfies every filter that is given. -/
structure Wanted (F : Folding sqlWild) (w : Uuid) (status : Option CampaignStatus)
    (search : Option String) (c : Campaign) : Prop where
  workspace : c.workspaceId = w
  kept : c.deletedAt = none
  status : ∀ st, status = some st → c.status = st
  search : ∀ q, search = some q → Mentions F q c

/-- The list is that of the wanted campaigns, each once. -/
def Lists (F : Folding sqlWild) (s : Database) (w : Uuid) (limit : ℤ)
    (status : Option CampaignStatus) (search : Option String) : Prop :=
  ∃ l, (getCampaigns (sqlIlike F) w 0 limit status search).Returns s l s ∧ l.Nodup ∧
    ∀ c, c ∈ l ↔ c ∈ s.campaigns.rows ∧ Wanted F w status search c

/-- The filters mean what they say: for every table that the page holds. -/
def Means (F : Folding sqlWild) (status : Option CampaignStatus) (search : Option String) : Prop :=
  ∀ s w limit, (s.campaigns.rows.length : ℤ) ≤ limit → Lists F s w limit status search

/-- No text is searched for; or the status is not asked for, and the text has neither a wildcard nor
an escape nor the character 0. -/
def Simple (status : Option CampaignStatus) (search : Option String) : Prop :=
  ∀ q, search = some q → q ≠ "" →
    status = none ∧ sqlWild.Plain q.toList ∧ Char.ofNat 0 ∉ q.toList

variable {F : Folding sqlWild} {s : Database} {w : Uuid} {limit : ℤ} {c : Campaign}
  {status : Option CampaignStatus} {search : Option String} {q : String}

/-! ### One page -/

/-- A page that holds the table gives the rows that satisfy the condition, each once. -/
theorem newestPage_whole (p : Campaign → Bool) (h : (s.campaigns.rows.length : ℤ) ≤ limit) :
    ∃ l, (newestPage p Campaign.createdAt 0 limit).Returns s l s ∧ l.Nodup ∧
      ∀ c, c ∈ l ↔ c ∈ s.campaigns.rows ∧ p c = true := by
  obtain ⟨l, hret, hperm⟩ := exists_newestPage p Campaign.createdAt h
  refine ⟨l, hret, hperm.nodup_iff.mpr (s.campaigns.nodup.filter p), fun c => ?_⟩
  exact hperm.mem_iff.trans Table.mem_select

/-- A query on such a page is right exactly if its condition is. -/
theorem page_iff (p : Campaign → Bool) (P : Campaign → Prop)
    (h : (s.campaigns.rows.length : ℤ) ≤ limit) :
    (∃ l, (newestPage p Campaign.createdAt 0 limit).Returns s l s ∧ l.Nodup ∧
      ∀ c, c ∈ l ↔ c ∈ s.campaigns.rows ∧ P c) ↔
      ∀ c ∈ s.campaigns.rows, (p c = true ↔ P c) := by
  obtain ⟨l, hret, hnodup, hmem⟩ := newestPage_whole p h
  constructor
  · rintro ⟨l', hret', -, hmem'⟩ c hc
    obtain ⟨rfl, -⟩ := Prog.returns_unique hret hret'
    have hiff := (hmem c).symm.trans (hmem' c)
    simpa [hc] using hiff
  · intro hp
    refine ⟨l, hret, hnodup, fun c => (hmem c).trans ?_⟩
    exact and_congr_right fun hc => hp c hc

/-! ### The search -/

/-- The condition of the search. -/
def found (F : Folding sqlWild) (w : Uuid) (q : String) (c : Campaign) : Bool :=
  c.workspaceId = w && c.deletedAt.isNone &&
    (sqlIlike F c.campaignName ("%" ++ q ++ "%") ||
      c.description.any (sqlIlike F · ("%" ++ q ++ "%")) ||
        c.objective.any (sqlIlike F · ("%" ++ q ++ "%")))

theorem toList_pattern (q : String) : ("%" ++ q ++ "%").toList = around sqlWild q.toList := by
  simp [String.toList_append, around, sqlWild]

theorem found_iff_of_plain (h : sqlWild.Plain q.toList) :
    found F w q c = true ↔ c.workspaceId = w ∧ c.deletedAt = none ∧ Mentions F q c := by
  have hone : ∀ t : String, sqlIlike F t ("%" ++ q ++ "%") = true ↔ Occurs F q.toList t.toList := by
    intro t
    rw [sqlIlike, toList_pattern, ilike_around_of_plain h, Option.getD_some, decide_eq_true_iff]
  simp only [found, Mentions, Bool.and_eq_true, Bool.or_eq_true, decide_eq_true_eq,
    Option.isNone_iff_eq_none, Option.any_eq_true, hone, and_assoc, or_assoc]

theorem getCampaigns_search (hq : q ≠ "") (h0 : Char.ofNat 0 ∉ q.toList) {l : List Campaign} :
    (getCampaigns (sqlIlike F) w 0 limit status (some q)).Returns s l s ↔
      (newestPage (found F w q) Campaign.createdAt 0 limit).Returns s l s := by
  have htruthy : truthy (some q) = true := decide_eq_true hq
  unfold getCampaigns
  rw [if_pos htruthy]
  unfold searchCampaigns
  rw [Prog.returns_bind]
  constructor
  · rintro ⟨_, t, hreq, h⟩
    obtain ⟨-, rfl⟩ := Prog.returns_require.mp hreq
    exact h
  · exact fun h => ⟨(), s, Prog.returns_require.mpr ⟨h0, rfl⟩, h⟩

theorem not_lists_of_zero (hq : q ≠ "") (h0 : Char.ofNat 0 ∈ q.toList) :
    ¬ Lists F s w limit status (some q) := by
  rintro ⟨l, hret, -⟩
  have htruthy : truthy (some q) = true := decide_eq_true hq
  unfold getCampaigns at hret
  rw [if_pos htruthy] at hret
  unfold searchCampaigns at hret
  rw [Prog.returns_bind] at hret
  obtain ⟨_, t, hreq, -⟩ := hret
  exact (Prog.returns_require.mp hreq).1 h0

/-- A search lists what it should exactly if its query is right about every campaign. -/
theorem lists_search_iff (hq : q ≠ "") (h0 : Char.ofNat 0 ∉ q.toList)
    (h : (s.campaigns.rows.length : ℤ) ≤ limit) : Lists F s w limit status (some q) ↔
      ∀ c ∈ s.campaigns.rows, (found F w q c = true ↔ Wanted F w status (some q) c) := by
  rw [← page_iff (found F w q) (Wanted F w status (some q)) h]
  simp only [Lists, getCampaigns_search hq h0]

/-! ### Requests that mean what they say -/

theorem mentions_empty : Mentions F "" c := Or.inl (List.nil_infix)

theorem lists_of_no_search (hempty : ∀ q, search = some q → q = "")
    (hlen : (s.campaigns.rows.length : ℤ) ≤ limit) : Lists F s w limit status search := by
  have htruthy : truthy search ≠ true := by
    rcases search with _ | q
    · exact Bool.false_ne_true
    · rw [hempty q rfl]
      exact Bool.false_ne_true
  have hmentions : ∀ c q, search = some q → Mentions F q c := by
    intro c q hq
    rw [hempty q hq]
    exact mentions_empty
  unfold Lists getCampaigns
  simp only [if_neg htruthy]
  rcases status with _ | st
  · refine (page_iff _ _ hlen).mpr fun c _ => ?_
    simp only [Bool.and_eq_true, decide_eq_true_eq, Option.isNone_iff_eq_none]
    exact ⟨fun h => ⟨h.1, h.2, nofun, hmentions c⟩, fun h => ⟨h.workspace, h.kept⟩⟩
  · refine (page_iff _ _ hlen).mpr fun c _ => ?_
    simp only [Bool.and_eq_true, decide_eq_true_eq, Option.isNone_iff_eq_none]
    constructor
    · rintro ⟨⟨hw, hst⟩, hd⟩
      refine ⟨hw, hd, fun st' hst' => ?_, hmentions c⟩
      rw [hst]
      exact Option.some.inj hst'
    · exact fun h => ⟨⟨h.workspace, h.status st rfl⟩, h.kept⟩

theorem lists_of_simple (h : Simple status search) (hlen : (s.campaigns.rows.length : ℤ) ≤ limit) :
    Lists F s w limit status search := by
  by_cases hsearch : ∃ q, search = some q ∧ q ≠ ""
  · obtain ⟨q, rfl, hq⟩ := hsearch
    obtain ⟨rfl, hplain, h0⟩ := h q rfl hq
    rw [lists_search_iff hq h0 hlen]
    intro c _
    rw [found_iff_of_plain hplain]
    constructor
    · rintro ⟨hw, hd, hm⟩
      refine ⟨hw, hd, nofun, fun q' hq' => ?_⟩
      obtain rfl := Option.some.inj hq'
      exact hm
    · exact fun h => ⟨h.workspace, h.kept, h.search q rfl⟩
  · refine lists_of_no_search (fun q hq => ?_) hlen
    by_contra hne
    exact hsearch ⟨q, hq, hne⟩

/-! ### Requests that do not -/

/-- A campaign of the first workspace with this status and this description. -/
def described (st : CampaignStatus) (text : String) : Campaign :=
  { launch with status := st, description := some text }

/-- The two workspaces, and that campaign. -/
def describing (st : CampaignStatus) (text : String) : Database :=
  { twoStudios with campaigns := ⟨[described st text], List.pairwise_singleton _ _⟩ }

/-- Another status. -/
def otherStatus : CampaignStatus → CampaignStatus
  | .draft => .active
  | _ => .draft

theorem otherStatus_ne (st : CampaignStatus) : otherStatus st ≠ st := by
  cases st <;> decide

theorem found_described {st : CampaignStatus} {t : List Char}
    (h : ilike F (around sqlWild q.toList) t = some true) :
    found F 10 q (described st (String.ofList t)) = true := by
  have hdesc : sqlIlike F (String.ofList t) ("%" ++ q ++ "%") = true := by
    rw [sqlIlike, toList_pattern, String.toList_ofList, h]
    rfl
  have hany : (described st (String.ofList t)).description.any
      (sqlIlike F · ("%" ++ q ++ "%")) = true := hdesc
  unfold found
  rw [hany]
  simp [described, launch, campaignOf]

/-- A request that is not simple lists a campaign that it should not, or fails. -/
theorem simple_of_means (h : Means F status search) : Simple status search := by
  intro q hsearch hq
  subst hsearch
  have h0 : Char.ofNat 0 ∉ q.toList := fun h0 =>
    not_lists_of_zero hq h0 (h twoStudios 10 0 (by decide))
  have hx : ¬ sqlWild.Special 'x' := by decide
  obtain ⟨t, hfits, -, hlight⟩ := exists_ilike_lighter F hx q.toList
  have hwanted : ∀ st, Wanted F 10 status (some q) (described st (String.ofList t)) := by
    intro st
    have hlists := h (describing st (String.ofList t)) 10 1 le_rfl
    refine ((lists_search_iff hq h0 le_rfl).mp hlists _ ?_).mp (found_described hfits)
    exact List.mem_singleton.mpr rfl
  have hstatus : status = none := by
    rcases status with _ | st
    · rfl
    · exact absurd ((hwanted (otherStatus st)).status st rfl) (otherStatus_ne st)
  have hplain : sqlWild.Plain q.toList := by
    by_contra hnot
    have hlighter := hlight hnot
    have hname : ¬ Occurs F q.toList "Launch".toList := by
      refine not_occurs_of_lighter ?_
      have hzero : weight sqlWild ("Launch".toList.map F.fold) = 0 :=
        weight_eq_zero_of_plain (plain_map.mpr (by decide))
      omega
    rcases (hwanted .draft).search q rfl with hocc | ⟨t', ht', hocc⟩ | ⟨t', ht', -⟩
    · exact hname hocc
    · obtain rfl := Option.some.inj ht'
      rw [String.toList_ofList] at hocc
      exact not_occurs_of_lighter hlighter hocc
    · exact absurd ht' nofun
  exact ⟨hstatus, hplain, h0⟩

/-- **The filters mean what they say** exactly if nothing is searched for, or no status is given and
the text that is searched for has no wildcard, no escape and no character 0. -/
theorem means_iff (F : Folding sqlWild) (status : Option CampaignStatus)
    (search : Option String) : Means F status search ↔ Simple status search :=
  ⟨simple_of_means, fun h _ _ _ hlen => lists_of_simple h hlen⟩

/-! ### A database with the letters of ASCII -/

/-- A letter of ASCII, made small. -/
def small (c : Char) : Char :=
  if 65 ≤ c.toNat ∧ c.toNat ≤ 90 then Char.ofNat (c.toNat + 32) else c

theorem special_toNat {c : Char} (h : sqlWild.Special c) :
    c.toNat = 37 ∨ c.toNat = 95 ∨ c.toNat = 92 := by
  rcases h with rfl | rfl | rfl
  · exact Or.inl rfl
  · exact Or.inr (Or.inl rfl)
  · exact Or.inr (Or.inr rfl)

/-- Case is that of ASCII. -/
def asciiFolding : Folding sqlWild where
  fold := small
  special := by
    rintro c (rfl | rfl | rfl)
    · rfl
    · rfl
    · rfl
  plain := by
    intro c hc
    unfold small
    split_ifs with hupper
    · intro hspecial
      have hvalid : (c.toNat + 32).isValidChar := Or.inl (by omega)
      have hcode : (Char.ofNat (c.toNat + 32)).toNat = c.toNat + 32 := by
        unfold Char.ofNat
        rw [dif_pos hvalid]
        rfl
      have := special_toNat hspecial
      omega
    · exact hc

/-- **A search forgets the status**: asked for drafts, the list shows an active campaign. -/
theorem search_forgets_status : ¬ Means asciiFolding (some .draft) (some "launch") := by
  intro h
  have hlists := h launched 10 1 (by decide)
  have hfound : found asciiFolding 10 "launch" launch = true := by decide
  have hwanted := (lists_search_iff (by decide) (by decide) (by decide)).mp hlists launch
    (List.mem_singleton.mpr rfl)
  exact absurd ((hwanted.mp hfound).status .draft rfl) (by decide)

end MarketingSuite.Campaigns.Filters
